import CodeSurvey.Proofs.Index.Ownership
import CodeSurvey.Proofs.Index.WellFormed
import CodeSurvey.Proofs.Python.Lines

/-!
# Where an index points

What an index says to be on a line is on a line of the source, since both passes take the lines from
the syntax. The one line that is kept apart from it is that of `__all__`: it is the line of the last
assignment at module level, and stays zero where names are only added.

* `keeps_placed`: the first pass takes the lines of symbols and imports from the nodes.
* `occurrences_places`: so does the second pass with those of uses.
* `exportsLine_definitionsOf`: the line of `__all__` is that of its last assignment.
* `indexSource_positions`: every line of an index is one of the source, except those of the names
  that are added to an `__all__` that is never assigned.
-/

namespace CodeSurvey

open Python (Node)
open SymbolTable

/-! ### Symbols and imports -/

namespace SymbolTable

/-- The symbols and the imports of a table are on given lines. -/
structure Placed (lines : Nat → Prop) (t : SymbolTable) : Prop where
  symbols : ∀ symbol ∈ t.symbols, lines symbol.line
  imports : ∀ entry ∈ t.imports, lines entry.line

theorem Placed.define {lines : Nat → Prop} {t : SymbolTable} (h : t.Placed lines) (s : Nat)
    {d : Definition} (good : lines d.line) : (t.bindSymbol s d).2.Placed lines := by
  rcases t.bindSymbol_cases s d with eq | ⟨-, ⟨i, -, eq⟩ | ⟨-, eq⟩⟩
  · rwa [eq]
  · rw [eq]
    exact ⟨h.symbols, h.imports⟩
  · rw [eq]
    refine ⟨fun symbol there => ?_, h.imports⟩
    rcases List.mem_append.1 there with old | new
    · exact h.symbols symbol old
    · rw [List.mem_singleton.1 new]
      exact good

/-- **The first pass puts symbols and imports on the lines of their nodes.** -/
theorem keeps_placed (lines : Nat → Prop) : Keeps lines (Placed lines) where
  define t s d good _ _ _ h := h.define s good
  record t s entry good _ h := by
    have noted : { t with imports := t.imports ++ [entry] }.Placed lines := by
      refine ⟨h.symbols, fun other there => ?_⟩
      rcases List.mem_append.1 there with old | new
      · exact h.imports other old
      · rw [List.mem_singleton.1 new]
        exact good
    rw [addImport]
    split
    · exact noted
    · exact noted.define s good
  hide _ _ _ _ h        := ⟨h.symbols, h.imports⟩
  declare _ _ _ h       := ⟨h.symbols, h.imports⟩
  enter _ _ _ _ _ _ _ h := ⟨h.symbols, h.imports⟩
  body _ _ h            := ⟨h.symbols, h.imports⟩
  listed _ _ _ h        := ⟨h.symbols, h.imports⟩

end SymbolTable

/-! ### Uses -/

namespace Visit

variable {table : SymbolTable} {r : Reference}

theorem each_places {w : Visit} {s : Nat} {st : Bool} {nodes : List Node}
    (h : w ∈ each s st nodes) : w.node.places ⊆ Node.placesIn nodes := by
  obtain ⟨node, there, rfl⟩ := List.mem_map.1 h
  exact Node.places_subset_placesIn there

/-- The pass goes on to nodes that are part of the one it is at. -/
theorem next_places {v w : Visit} (h : w ∈ v.next table) : w.node.places ⊆ v.node.places := by
  obtain ⟨s, st, node⟩ := v
  intro line there
  cases node with
  | «attribute» object fieldLine field =>
      rw [next_attribute h] at there
      exact List.mem_cons_of_mem _ there
  | name | asTarget | imports | globals => simp [next] at h
  | bundle | string | group | branch | comprehension => exact each_places h there
  | keyword =>
      rw [List.mem_singleton.1 h] at there
      exact there
  | walrus =>
      rw [List.mem_singleton.1 h] at there
      exact List.mem_cons_of_mem _ there
  | subscript | call | forIn | forLoop =>
      rcases List.mem_cons.1 h with rfl | h
      · exact List.mem_append_left _ there
      · exact List.mem_append_right _ (each_places h there)
  | lambda | decorated =>
      rcases List.mem_append.1 h with h | h
      · exact List.mem_append_left _ (each_places h there)
      · rw [List.mem_singleton.1 h] at there
        exact List.mem_append_right _ there
  | assign _ target hint value =>
      simp only [next, List.mem_cons, List.not_mem_nil, or_false] at h
      simp only [Node.places, List.mem_append]
      rcases h with rfl | rfl | rfl
      · exact .inr (.inl there)
      · exact .inr (.inr (.inl there))
      · exact .inr (.inr (.inr there))
  | augment | param =>
      simp only [next, List.mem_cons, List.not_mem_nil, or_false] at h
      simp only [Node.places, List.mem_append]
      rcases h with rfl | rfl
      · exact .inl there
      · exact .inr there
  | function _ _ _ params returns body =>
      simp only [Node.places, List.mem_cons, List.mem_append]
      rcases List.mem_append.1 h with h | h
      · exact .inr (.inl (each_places h there))
      · rcases List.mem_cons.1 h with rfl | h
        · exact .inr (.inr (.inl there))
        · exact .inr (.inr (.inr (each_places h there)))
  | classDef =>
      simp only [Node.places, List.mem_cons, List.mem_append]
      rcases List.mem_append.1 h with h | h
      · exact .inr (.inl (each_places h there))
      · exact .inr (.inr (each_places h there))

theorem nameReference_line {s line : Nat} {name : String}
    (h : r ∈ table.nameReference s line name) : r.line = line := by
  rw [nameReference.eq_def] at h
  split at h
  · rw [List.mem_singleton.1 h]
    rfl
  · cases h
  · rw [List.mem_singleton.1 h]
    rfl

theorem objectReferences_line {s line : Nat} {name : String}
    (h : r ∈ (table.objectReferences s line name).1) : r.line = line := by
  rw [objectReferences.eq_def] at h
  split at h
  · split at h
    · rw [List.mem_singleton.1 h]
      rfl
    · exact nameReference_line h
  · split at h
    · cases h
    · exact nameReference_line h
  · exact nameReference_line h

theorem fieldReference_line (table : SymbolTable) (body : Option Nat) (line : Nat)
    (field : String) : (table.fieldReference body line field).line = line := by
  rcases fieldReference_cases table body line field with ⟨_, _, _, _, eq⟩ | ⟨_, eq⟩
  · rw [eq]
    rfl
  · rw [eq]
    rfl

theorem importReferences_places {s line : Nat} {field : String} {node : Node}
    {references : List Reference}
    (found : table.importReferences s line field node = some references) (h : r ∈ references) :
    r.line = line ∨ r.line ∈ node.places := by
  obtain ⟨⟨⟨rootLine, root⟩, attributes⟩, chain, later⟩ := Option.bind_eq_some_iff.1 found
  obtain ⟨⟨i, source⟩, -, eq⟩ := Option.bind_eq_some_iff.1 later
  cases eq
  rcases List.mem_cons.1 h with rfl | h
  · exact .inr (node.chain_places chain)
  · rw [List.mem_singleton.1 h]
    exact .inl rfl

/-- The uses of an object are on its line. -/
theorem fieldOwner_places {s : Nat} {object : Node} (h : r ∈ (table.fieldOwner s object).1) :
    r.line ∈ object.places := by
  cases object with
  | name line id =>
      rw [objectReferences_line h]
      exact List.mem_cons_self
  | _ => cases h

/-- **What a stop lists is on a line of its node.** -/
theorem own_places {v : Visit} (h : r ∈ v.own table) : r.line ∈ v.node.places := by
  obtain ⟨s, st, node⟩ := v
  cases node with
  | name line id =>
      simp only [own] at h
      split at h
      · cases h
      · rw [nameReference_line h]
        exact List.mem_cons_self
  | «attribute» object line field =>
      cases st with
      | true => cases h
      | false =>
          cases inside : table.importReferences s line field (.attribute object line field) with
          | some references =>
              simp only [own, inside] at h
              rcases importReferences_places inside h with eq | there
              · rw [eq]
                exact List.mem_cons_self
              · exact there
          | none =>
              rw [own_attribute inside] at h
              rcases List.mem_append.1 h with h | h
              · exact List.mem_cons_of_mem _ (fieldOwner_places h)
              · rw [List.mem_singleton.1 h, fieldReference_line]
                exact List.mem_cons_self
  | subscript =>
      obtain ⟨line, id, arguments, key, rfl, -, -, -, rfl⟩ := mem_namespaceLookup_iff.1 h
      exact List.mem_append_left _ (List.mem_append_left _ List.mem_cons_self)
  | call =>
      obtain ⟨line, id, field, rfl, -, -, -, rfl⟩ := mem_attributeCall_iff.1 h
      exact List.mem_append_left _ List.mem_cons_self
  | _ => cases h

theorem leads_places {v w : Visit} (h : Leads table v w) : w.node.places ⊆ v.node.places := by
  induction h with
  | refl => exact List.Subset.refl _
  | tail _ step ih => exact List.Subset.trans (next_places step) ih

end Visit

/-- **The second pass finds uses on the lines of the nodes.** -/
theorem occurrences_places {table : SymbolTable} {nodes : List Node} {r : Reference}
    (h : r ∈ occurrencesIn table 0 false nodes) : r.line ∈ Node.placesIn nodes := by
  obtain ⟨w, ⟨v, first, leads⟩, own⟩ := mem_occurrences_iff.1 h
  exact Visit.each_places first (Visit.leads_places leads (Visit.own_places own))

/-! ### The line of `__all__` -/

namespace Python.Node

/-- The line of an assignment, if it is one to `__all__`. -/
def exportLine (line : Nat) : Node → List Nat
  | .name _ "__all__" => [line]
  | _                 => []

mutual

/-- The lines of the assignments to `__all__` that a node makes in the scope it stands in, in the
order of the first pass. -/
def exportLines : Node → List Nat
  | .assign line target _ value => exportLine line target ++ value.exportLines
  | .augment _ value          => value.exportLines
  | .decorated _ definition   => definition.exportLines
  | .walrus _ _ value         => value.exportLines
  | .forLoop _ rest           => exportLinesIn rest
  | .forIn target rest        => target.exportLines ++ exportLinesIn rest
  | .string _ holes           => exportLinesIn holes
  | .attribute object _ _     => object.exportLines
  | .subscript value indices  => value.exportLines ++ exportLinesIn indices
  | .call callee arguments    => callee.exportLines ++ exportLinesIn arguments
  | .keyword _ value          => value.exportLines
  | .bundle _ items           => exportLinesIn items
  | .group items              => exportLinesIn items
  | .branch items             => exportLinesIn items
  | _                         => []

/-- The lines of the assignments to `__all__` that some nodes make. -/
def exportLinesIn : List Node → List Nat
  | []           => []
  | node :: rest => node.exportLines ++ exportLinesIn rest

end

/-- An assignment to a name has its line among those of its node. -/
theorem exportLine_subset (line : Nat) (target : Node) :
    exportLine line target ⊆ strayLine line target ++ target.places := by
  intro l there
  unfold exportLine at there
  split at there
  · rename_i own
    rw [List.mem_singleton.1 there, strayLine]
    by_cases same : line = own
    · rw [same]
      exact List.mem_append_right _ List.mem_cons_self
    · rw [if_neg same]
      exact List.mem_append_left _ List.mem_cons_self
  · cases there

mutual

/-- The lines of assignments to `__all__` are among those of their nodes. -/
theorem exportLines_subset : ∀ node : Node, node.exportLines ⊆ node.places
  | .assign line target hint value => by
      intro l there
      simp only [places, ← List.append_assoc]
      rcases List.mem_append.1 there with own | there
      · exact List.mem_append_left _ (List.mem_append_left _ (exportLine_subset line target own))
      · exact List.mem_append_right _ (exportLines_subset value there)
  | .augment target value =>
      fun _ there => List.mem_append_right _ (exportLines_subset value there)
  | .decorated _ definition =>
      fun _ there => List.mem_append_right _ (exportLines_subset definition there)
  | .walrus _ _ value => fun _ there => List.mem_cons_of_mem _ (exportLines_subset value there)
  | .forLoop _ rest => fun _ there => List.mem_append_right _ (exportLinesIn_subset rest there)
  | .attribute object _ _ =>
      fun _ there => List.mem_cons_of_mem _ (exportLines_subset object there)
  | .forIn first rest | .subscript first rest | .call first rest =>
      fun _ there => List.mem_append.2 ((List.mem_append.1 there).imp
        (fun h => exportLines_subset first h) fun h => exportLinesIn_subset rest h)
  | .keyword _ value => exportLines_subset value
  | .string _ items | .bundle _ items | .group items | .branch items => exportLinesIn_subset items
  | .name .. | .lambda .. | .comprehension .. | .asTarget _ | .function .. | .classDef ..
  | .imports .. | .globals _ | .param .. => List.nil_subset _

theorem exportLinesIn_subset : ∀ nodes : List Node, exportLinesIn nodes ⊆ placesIn nodes
  | [] => List.nil_subset _
  | node :: rest => fun _ there => List.mem_append.2 ((List.mem_append.1 there).imp
      (fun h => exportLines_subset node h) fun h => exportLinesIn_subset rest h)

end

end Python.Node

open Python.Node (exportLine exportLines exportLinesIn)

namespace SymbolTable

/-- The last of some lines, of which only those in the module scope count. -/
def lastAt (s : Nat) (lines : List Nat) (before : Nat) : Nat :=
  if s = 0 then lines.getLastD before else before

theorem lastAt_nil (s before : Nat) : lastAt s [] before = before := by
  rw [lastAt]
  split <;> rfl

theorem lastAt_append (s : Nat) (l l' : List Nat) (before : Nat) :
    lastAt s (l ++ l') before = lastAt s l' (lastAt s l before) := by
  simp only [lastAt]
  split
  · rw [List.getLastD_eq_getLast?, List.getLastD_eq_getLast?, List.getLastD_eq_getLast?,
      List.getLast?_append]
    cases l'.getLast? <;> rfl
  · rfl

/-- A table has a line for `__all__`. -/
def Noted (line : Nat) (t : SymbolTable) : Prop :=
  t.exportsLine = line

theorem exportsLine_bindSymbol (t : SymbolTable) (s : Nat) (d : Definition) :
    (t.bindSymbol s d).2.exportsLine = t.exportsLine := by
  rcases t.bindSymbol_cases s d with eq | ⟨-, ⟨i, -, eq⟩ | ⟨-, eq⟩⟩
  · rw [eq]
  · rw [eq]
    rfl
  · rw [eq]
    rfl

theorem works_noted (line : Nat) : Works (fun _ => True) (Noted line) where
  define t s d _ _ _ _ h := (exportsLine_bindSymbol t s d).trans h
  record t s entry _ _ h := by
    rw [addImport]
    split
    · exact h
    · exact (exportsLine_bindSymbol ..).trans h
  hide _ _ _ _ h        := h
  declare _ _ _ h       := h
  enter _ _ _ _ _ _ _ h := h
  body _ _ h            := h

theorem Holds.unnoted {s before : Nat} {t : SymbolTable} (h : Holds (Noted before) s t) :
    Holds (Noted (lastAt s [] before)) s t :=
  (lastAt_nil s before).symm ▸ h

/-- An assignment to `__all__` at module level is noted. -/
theorem setExports_noted {s before : Nat} (line : Nat) (target value : Node) {t : SymbolTable}
    (h : Holds (Noted before) s t) :
    Holds (Noted (lastAt s (exportLine line target) before)) s
      (t.setExports s line target value) := by
  cases target with
  | name own id =>
      by_cases all : id = "__all__"
      · subst all
        by_cases module : s = 0
        · rw [setExports, if_pos module, lastAt, if_pos module]
          exact ⟨h.1, rfl⟩
        · rw [setExports, if_neg module, lastAt, if_neg module]
          exact h
      · have same : t.setExports s line (.name own id) value = t := by
          simp [setExports, all]
        have none : exportLine line (.name own id) = [] := by
          simp [exportLine, all]
        rw [same, none]
        exact h.unnoted
  | _ => exact h.unnoted

theorem addExports_noted {s before : Nat} (target value : Node) {t : SymbolTable}
    (h : Holds (Noted before) s t) : Holds (Noted before) s (t.addExports s target value) := by
  rw [addExports.eq_def]
  split
  · split
    · exact ⟨h.1, h.2⟩
    · exact h
  · exact h

/-- What is done in an inner scope is not noted. -/
theorem Holds.inner {s inner before : Nat} {lines : List Nat} {t : SymbolTable}
    (h : Holds (Noted (lastAt inner lines before)) inner t) (inside : s < inner) :
    Holds (Noted (lastAt s [] before)) s t := by
  rw [lastAt, if_neg (Nat.ne_zero_of_lt inside)] at h
  exact (h.outward inside.le).unnoted

end SymbolTable

mutual

/-- **The first pass notes the assignments to `__all__` at module level**, and of several the
last. -/
theorem collect_noted (s : Nat) (c d : Bool) {before : Nat} : ∀ (node : Node) {t : SymbolTable},
    Holds (Noted before) s t →
      Holds (Noted (lastAt s node.exportLines before)) s (collect s c d node t)
  | .function line id site params _ body, t, h =>
      (collectAll_noted _ false body
        ((works_noted before).enterFunction trivial id site params d h)).inner
          (enterFunction_fst t s line id site params d ▸ h.1)
  | .classDef line id site _ body, t, h =>
      (collectAll_noted _ false body ((works_noted before).enterClass trivial id site d h)).inner
        (enterClass_fst t s line id site d ▸ h.1)
  | .decorated _ definition, _, h => collect_noted s c true definition h
  | .imports line clause, _, h => ((works_noted before).addImports trivial c clause h).unnoted
  | .globals names, t, h => by
      have declared : Holds (Noted before) s (t.declareGlobal s names) :=
        ⟨by simpa [declareGlobal] using h.1, h.2⟩
      exact declared.unnoted
  | .assign line target _ value, _, h => by
      rw [exportLines, lastAt_append]
      refine collect_noted s c false value (setExports_noted line target value ?_)
      exact (works_noted before).bindTargets target (fun _ _ => trivial) h
  | .augment target value, _, h => collect_noted s c false value (addExports_noted target value h)
  | .walrus _ _ value, t, h => by
      refine collect_noted s c false value ⟨by simpa using h.1, ?_⟩
      exact (exportsLine_bindSymbol t s _).trans h.2
  | .forLoop target rest, _, h =>
      collectAll_noted s c rest ((works_noted before).hideAll target.mentioned h)
  | .lambda site params body, _, h =>
      (collect_noted _ c false body ((works_noted before).bindParams params
        ((works_noted before).push site .lambda _ nofun h) (fresh_push _ _ _ _ _))).inner h.1
  | .comprehension site items, _, h =>
      (collectAll_noted _ c items
        ((works_noted before).push site .comprehension _ nofun h)).inner h.1
  | .forIn target rest, _, h => by
      rw [exportLines, lastAt_append]
      exact collectAll_noted s c rest
        (collect_noted s c false target ((works_noted before).hideAll target.mentioned h))
  | .asTarget target, _, h => ((works_noted before).hideAll target.mentioned h).unnoted
  | .branch items, _, h => collectAll_noted s true items h
  | .name _ _, _, h | .param _ _ _, _, h => h.unnoted
  | .string _ items, _, h | .bundle _ items, _, h | .group items, _, h =>
      collectAll_noted s c items h
  | .attribute object _ _, _, h => collect_noted s c false object h
  | .subscript value items, _, h | .call value items, _, h => by
      rw [exportLines, lastAt_append]
      exact collectAll_noted s c items (collect_noted s c false value h)
  | .keyword _ value, _, h => collect_noted s c false value h

theorem collectAll_noted (s : Nat) (c : Bool) {before : Nat} :
    ∀ (nodes : List Node) {t : SymbolTable}, Holds (Noted before) s t →
      Holds (Noted (lastAt s (exportLinesIn nodes) before)) s (collectAll s c nodes t)
  | [], _, h => h.unnoted
  | node :: rest, _, h => by
      rw [exportLinesIn, lastAt_append]
      exact collectAll_noted s c rest (collect_noted s c false node h)

end

/-- **The line of `__all__` is that of its last assignment**, and zero without one. -/
theorem exportsLine_definitionsOf (file : SourceFile) (nodes : List Node) :
    (definitionsOf file nodes).exportsLine = (exportLinesIn nodes).getLastD 0 := by
  have empty : Holds (Noted 0) 0 (.empty file.path) := ⟨Nat.zero_lt_one, rfl⟩
  exact (collectAll_noted 0 false nodes empty).2

/-! ### Indexes -/

/-- A line of the indexed source. -/
def FileIndex.HasLine (index : FileIndex) (line : Nat) : Prop :=
  1 ≤ line ∧ line ≤ index.lineCount

section

variable {file : SourceFile} {nodes : List Node} {lineCount : Nat}
  (good : ∀ line ∈ Node.placesIn nodes, 1 ≤ line ∧ line ≤ lineCount)

include good

theorem placed_definitionsOf :
    (definitionsOf file nodes).Placed fun line => 1 ≤ line ∧ line ≤ lineCount :=
  holds_definitionsOf (keeps_placed _) file good ⟨nofun, nofun⟩

/-- The line of `__all__` is one of the source, if there is one. -/
theorem exportsLine_mem (assigned : exportLinesIn nodes ≠ []) :
    1 ≤ (definitionsOf file nodes).exportsLine ∧
      (definitionsOf file nodes).exportsLine ≤ lineCount := by
  refine good _ (Node.exportLinesIn_subset nodes ?_)
  rw [exportsLine_definitionsOf, List.getLastD_eq_getLast?, List.getLast?_eq_some_getLast assigned]
  exact List.getLast_mem assigned

/-- A use is on a line of the source, unless it is that of a name which `__all__` lists without
having been assigned. -/
theorem references_hasLine {r : Reference} (h : r ∈ (indexNodes file nodes lineCount).references) :
    (indexNodes file nodes lineCount).HasLine r.line ∨
      r.line = 0 ∧ exportLinesIn nodes = [] ∧
        r.name ∈ (indexNodes file nodes lineCount).exports.getD [] := by
  rcases List.mem_append.1 h with h | h
  · rcases List.mem_append.1 h with h | h
    · exact .inl (good _ (occurrences_places h))
    · obtain ⟨name, listed, rfl⟩ := List.mem_map.1 h
      by_cases assigned : exportLinesIn nodes = []
      · refine .inr ⟨?_, assigned, listed⟩
        exact (exportsLine_definitionsOf file nodes).trans (by rw [assigned]; rfl)
      · exact .inl (exportsLine_mem good assigned)
  · obtain ⟨⟨symbol, i⟩, there, rfl⟩ := List.mem_map.1 h
    have own := List.fst_mem_of_mem_zipIdx (List.mem_filter.1 there).1
    exact .inl ((placed_definitionsOf good).symbols symbol own)

end

/-- **Every line in an index is a line of its source**, with one exception: the names that are added
to `__all__` at module level have the line zero if it is never assigned there. All is well exactly
if that does not happen. -/
theorem indexSource_positions {file : SourceFile} {source : String} {index : FileIndex}
    (h : indexSource file source = .ok index) :
    ∃ nodes, Python.parse source = .ok nodes ∧
      (∀ symbol ∈ index.symbols, index.HasLine symbol.line) ∧
      (∀ entry ∈ index.imports, index.HasLine entry.line) ∧
      (∀ r ∈ index.references, index.HasLine r.line ∨
        r.line = 0 ∧ exportLinesIn nodes = [] ∧ r.name ∈ index.exports.getD []) ∧
      ((∀ r ∈ index.references, index.HasLine r.line) ↔
        (exportLinesIn nodes = [] → index.exports.getD [] = [])) := by
  rw [indexSource] at h
  split at h
  · rename_i nodes parsed
    cases h
    have good := Python.parse_places parsed
    have placed : (definitionsOf file nodes).Placed _ := placed_definitionsOf good
    refine ⟨nodes, parsed, ?_, placed.imports, fun r => references_hasLine good, ?_, ?_⟩
    · intro symbol there
      obtain ⟨⟨old, i⟩, own, rfl⟩ := List.mem_map.1 there
      exact placed.symbols old (List.fst_mem_of_mem_zipIdx own)
    · -- a listed name is a use at the line of `__all__`
      intro all unassigned
      refine List.eq_nil_iff_forall_not_mem.2 ?_
      intro name listed
      have use : SymbolTable.reference (definitionsOf file nodes) _ name _ .dynamicUncertain ∈
          (indexNodes file nodes (Text.lineCount source)).references :=
        List.mem_append_left _ (List.mem_append_right _ (List.mem_map_of_mem listed))
      have positive : 1 ≤ (definitionsOf file nodes).exportsLine := (all _ use).1
      rw [exportsLine_definitionsOf, unassigned] at positive
      exact absurd positive (by decide)
    · intro assigned r there
      refine (references_hasLine good there).resolve_right ?_
      rintro ⟨-, unassigned, listed⟩
      rw [assigned unassigned] at listed
      cases listed
  · cases h

/-- A module that adds a name to `__all__` without assigning it points to no line with the name. -/
theorem indexSource_positions_added : ∃ nodes index,
    Python.parse "__all__ += [\"x\"]\n" = .ok nodes ∧
      indexSource (rootModule "a.py" false) "__all__ += [\"x\"]\n" = .ok index ∧
      exportLinesIn nodes = [] ∧ index.exports = some ["x"] ∧
      ∃ r ∈ index.references, r.name = "x" ∧ ¬ index.HasLine r.line := by
  have read : ∃ nodes index, Python.parse "__all__ += [\"x\"]\n" = .ok nodes ∧
      indexSource (rootModule "a.py" false) "__all__ += [\"x\"]\n" = .ok index ∧
      exportLinesIn nodes = [] ∧ index.exports = some ["x"] :=
    ⟨_, _, rfl, rfl, by decide, by decide⟩
  obtain ⟨nodes, index, parsed, indexed, unassigned, exports⟩ := read
  refine ⟨nodes, index, parsed, indexed, unassigned, exports, ?_⟩
  obtain ⟨nodes', parsed', -, -, each, all⟩ := indexSource_positions indexed
  cases parsed.symm.trans parsed'
  have stray : ¬ ∀ r ∈ index.references, index.HasLine r.line := by
    intro lines
    exact absurd (all.1 lines unassigned) (by simp [exports])
  push Not at stray
  obtain ⟨r, there, off⟩ := stray
  have added := (each r there).resolve_left off
  exact ⟨r, there, by simpa [exports] using added.2.2, off⟩

end CodeSurvey
