import CodeSurvey.Index.File
import CodeSurvey.Proofs.Index.Visits

/-!
# What the second pass lists

At each of its stops the second pass lists the uses of names there. A use is definite if the file
tells what it can be, and uncertain if only run time can tell.

* `Definite`: a use of a symbol that a name is bound to, a name that means nothing in the file, or
  an attribute that an import leads to.
* `Visit.Uncertain`: an attribute or a name that a string spells, or an attribute that no class is
  known to have.
* `Visit.definite_or_uncertain` and `Visit.Uncertain.mem_own`: a stop lists definite uses and all of
  its uncertain ones.
* `UncertainUse`: the uncertain uses in a whole file, with the names that `__all__` lists and those
  whose imports may not run.
* `definite_or_uncertainUse` and `mem_references_uncertain_iff`: an index has definite uses and all
  uncertain ones of its file.
-/

namespace CodeSurvey

open Python (Node)

namespace SymbolTable

variable {table : SymbolTable} {r : Reference}

/-! ### Definite uses -/

/-- What a name means in the scopes around one is bound in a scope. -/
theorem exists_find_of_lookupOutward {name : String} {b : Binding} : ∀ {fuel : Nat}
    {start : Option Nat}, table.lookupOutward name fuel start = some b →
      ∃ i, (table.scope i).find name = some b
  | fuel + 1, some i, h => by
      rw [lookupOutward] at h
      split at h
      · rename_i b' bound
        cases h
        split at bound
        · cases bound
        · exact ⟨i, bound⟩
      · exact exists_find_of_lookupOutward h

/-- What a name means is bound in a scope. -/
theorem exists_find_of_lookup {s : Nat} {name : String} {b : Binding}
    (h : table.lookup s name = some b) : ∃ i, (table.scope i).find name = some b := by
  rw [lookup] at h
  split at h
  · rename_i b' bound
    cases h
    exact ⟨s, bound⟩
  · split at h
    · exact ⟨0, h⟩
    · exact exists_find_of_lookupOutward h

/-- The uses that do not depend on run time: a certain use of a symbol that a name is bound to, a
name of which nothing is known, and an attribute that an imported name leads to. -/
inductive Definite (table : SymbolTable) : Reference → Prop where
  | certain {scope i : Nat} {bound : String}
      (means : (table.scope scope).find bound = some (.symbol i)) (name : String) (line : Nat) :
      Definite table (table.reference (some i) name line .resolved)
  | unknown (name : String) (line : Nat) : Definite table (table.reference none name line .unknown)
  | access {symbol : Symbol} {source : Nat} {attributes : List String}
      (there : symbol ∈ table.symbols) (imported : symbol.source = some source)
      (path : attributes ≠ []) (name : String) (line : Nat) :
      Definite table { table.reference none name line .unknown with
        access := some { source, attributes } }

theorem Definite.file (h : Definite table r) : r.file = table.file := by
  cases h <;> rfl

theorem Definite.resolution (h : Definite table r) : r.resolution ≠ .dynamicUncertain := by
  cases h <;> nofun

/-- A use of a name is definite. -/
theorem definite_of_nameReference {scope line : Nat} {name : String}
    (h : r ∈ table.nameReference scope line name) : Definite table r := by
  rw [nameReference.eq_def] at h
  split at h
  · rename_i i means
    obtain ⟨scope, bound⟩ := exists_find_of_lookup means
    rw [List.mem_singleton.1 h]
    exact .certain bound ..
  · cases h
  · rw [List.mem_singleton.1 h]
    exact .unknown ..

/-- A chain that ends with an attribute has one. -/
theorem chain_attribute {object : Node} {line : Nat} {field : String}
    {root : Nat × String} {attributes : List String}
    (h : (Node.attribute object line field).chain = some (root, attributes)) : attributes ≠ [] := by
  obtain ⟨⟨root', path⟩, -, eq⟩ := Option.map_eq_some_iff.1 h
  cases eq
  simp

/-- So is an attribute that is reached through an import. -/
theorem definite_of_importReferences {scope line : Nat} {object : Node} {field : String}
    {references : List Reference}
    (h : table.importReferences scope line field (.attribute object line field) = some references)
    (there : r ∈ references) : Definite table r := by
  obtain ⟨⟨⟨rootLine, root⟩, attributes⟩, chain, h⟩ := Option.bind_eq_some_iff.1 h
  obtain ⟨⟨i, source⟩, behind, h⟩ := Option.bind_eq_some_iff.1 h
  cases h
  rw [importBehind.eq_def] at behind
  split at behind
  · rename_i i' means
    obtain ⟨source', imported, eq⟩ := Option.map_eq_some_iff.1 behind
    cases eq
    obtain ⟨symbol, symbolThere, imported⟩ := Option.bind_eq_some_iff.1 imported
    rcases List.mem_cons.1 there with rfl | there
    · obtain ⟨scope, bound⟩ := exists_find_of_lookup means
      exact .certain bound ..
    · rw [List.mem_singleton.1 there]
      exact .access (List.mem_of_getElem? symbolThere) imported (chain_attribute chain) ..
  · cases behind

theorem definite_of_objectReferences {scope line : Nat} {name : String}
    (h : r ∈ (table.objectReferences scope line name).1) : Definite table r := by
  rw [objectReferences.eq_def] at h
  split at h
  · rename_i i means
    split at h
    · obtain ⟨scope, bound⟩ := exists_find_of_lookup means
      rw [List.mem_singleton.1 h]
      exact .certain bound ..
    · exact definite_of_nameReference h
  · split at h
    · cases h
    · exact definite_of_nameReference h
  · exact definite_of_nameReference h

/-! ### Uncertain uses -/

/-- The uses of an object whose field is read, and the class body that the field is looked up in.
Only a name leads to one. -/
def fieldOwner (table : SymbolTable) (scope : Nat) : Node → List Reference × Option Nat
  | .name line id => table.objectReferences scope line id
  | _             => ([], none)

/-- So are the names that a field is reached through. -/
theorem definite_of_fieldOwner {scope : Nat} {object : Node}
    (h : r ∈ (table.fieldOwner scope object).1) : Definite table r := by
  cases object with
  | name => exact definite_of_objectReferences h
  | _ => cases h

/-- The use of a field is certain if the class binds it to a symbol, and uncertain otherwise. -/
theorem fieldReference_cases (table : SymbolTable) (body : Option Nat) (line : Nat)
    (field : String) :
    (∃ c j, body = some c ∧ (table.scope c).find field = some (.symbol j) ∧
      table.fieldReference body line field = table.reference (some j) field line .resolved) ∨
    (∀ c j, body = some c → (table.scope c).find field ≠ some (.symbol j)) ∧
      table.fieldReference body line field = table.reference none field line .dynamicUncertain := by
  rw [fieldReference.eq_def]
  split
  · rename_i j means
    obtain ⟨c, known, bound⟩ := Option.bind_eq_some_iff.1 means
    exact .inl ⟨c, j, known, bound, rfl⟩
  · rename_i other
    refine .inr ⟨fun c j known bound => other j ?_, rfl⟩
    rw [known]
    exact bound

/-- A call of `getattr` and the like names a field by a text, if nothing in the file has its name.
-/
theorem mem_attributeCall_iff {scope : Nat} {callee : Node} {arguments : List Node} :
    r ∈ table.attributeCall scope callee arguments ↔
      ∃ line id field, callee = .name line id ∧ id ∈ attributeFunctions ∧
        table.lookup scope id = none ∧ (Node.secondPart arguments).bind Node.literal? = some field ∧
        r = table.reference none field line .dynamicUncertain := by
  constructor
  · intro h
    rw [attributeCall.eq_def] at h
    split at h
    · rename_i line id
      split at h
      · rename_i known
        split at h
        · rename_i field literal
          exact ⟨line, id, field, rfl, known.1, Option.isNone_iff_eq_none.1 known.2, literal,
            List.mem_singleton.1 h⟩
        · cases h
      · cases h
    · cases h
  · rintro ⟨line, id, field, rfl, function, free, literal, rfl⟩
    simp [attributeCall, function, free, literal]

/-- So does an index into `globals()` and the like. -/
theorem mem_namespaceLookup_iff {scope : Nat} {value : Node} {indices : List Node} :
    r ∈ table.namespaceLookup scope value indices ↔
      ∃ line id arguments key, value = .call (.name line id) arguments ∧ id ∈ namespaceFunctions ∧
        table.lookup scope id = none ∧ indices.head?.bind Node.literal? = some key ∧
        r = table.reference (table.moduleSymbol key) key line .dynamicUncertain := by
  constructor
  · intro h
    rw [namespaceLookup.eq_def] at h
    split at h
    · rename_i line id arguments
      split at h
      · rename_i known
        split at h
        · rename_i key literal
          exact ⟨line, id, arguments, key, rfl, known.1, Option.isNone_iff_eq_none.1 known.2,
            literal, List.mem_singleton.1 h⟩
        · cases h
      · cases h
    · cases h
  · rintro ⟨line, id, arguments, key, rfl, function, free, literal, rfl⟩
    simp only [namespaceLookup, function, free, literal, Option.isNone_none, and_self, if_true,
      List.mem_singleton]
    rfl

end SymbolTable

open SymbolTable

namespace Visit

variable {table : SymbolTable} {r : Reference}

/-- A use at a stop of the second pass that only run time can confirm. -/
inductive Uncertain (table : SymbolTable) : Visit → Reference → Prop where
  /-- An attribute that a string spells, as in `getattr(object, "name")`. -/
  | spelled {s line : Nat} {st : Bool} {id field : String} {arguments : List Node}
      (function : id ∈ attributeFunctions) (free : table.lookup s id = none)
      (literal : (Node.secondPart arguments).bind Node.literal? = some field) :
      Uncertain table ⟨s, st, .call (.name line id) arguments⟩
        (table.reference none field line .dynamicUncertain)
  /-- A name that a string spells, as in `globals()["name"]`. -/
  | keyed {s line : Nat} {st : Bool} {id key : String} {arguments indices : List Node}
      (function : id ∈ namespaceFunctions) (free : table.lookup s id = none)
      (literal : indices.head?.bind Node.literal? = some key) :
      Uncertain table ⟨s, st, .subscript (.call (.name line id) arguments) indices⟩
        (table.reference (table.moduleSymbol key) key line .dynamicUncertain)
  /-- An attribute that is read, that no import leads to and that no class is known to have. -/
  | duck {s line : Nat} {object : Node} {field : String}
      (inside : table.importReferences s line field (.attribute object line field) = none)
      (missing : ∀ c j, (table.fieldOwner s object).2 = some c →
        (table.scope c).find field ≠ some (.symbol j)) :
      Uncertain table ⟨s, false, .attribute object line field⟩
        (table.reference none field line .dynamicUncertain)

theorem own_attribute {s line : Nat} {object : Node} {field : String}
    (inside : table.importReferences s line field (.attribute object line field) = none) :
    own table ⟨s, false, .attribute object line field⟩ =
      (table.fieldOwner s object).1 ++
        [table.fieldReference (table.fieldOwner s object).2 line field] := by
  simp only [own, inside]
  cases object <;> rfl

/-- **What a stop lists is definite or uncertain.** -/
theorem definite_or_uncertain {v : Visit} (h : r ∈ v.own table) :
    Definite table r ∨ v.Uncertain table r := by
  obtain ⟨s, st, node⟩ := v
  cases node with
  | name line id =>
      simp only [own] at h
      split at h
      · cases h
      · exact .inl (definite_of_nameReference h)
  | «attribute» object line field =>
      cases st with
      | true => cases h
      | false =>
          cases inside : table.importReferences s line field (.attribute object line field) with
          | some references =>
              simp only [own, inside] at h
              exact .inl (definite_of_importReferences inside h)
          | none =>
              rw [own_attribute inside] at h
              rcases List.mem_append.1 h with h | h
              · exact .inl (definite_of_fieldOwner h)
              · rw [List.mem_singleton.1 h]
                rcases fieldReference_cases table (table.fieldOwner s object).2 line field with
                  ⟨c, j, -, bound, eq⟩ | ⟨missing, eq⟩
                · exact .inl (eq ▸ .certain bound field line)
                · exact .inr (eq ▸ .duck inside missing)
  | subscript =>
      obtain ⟨line, id, arguments, key, rfl, function, free, literal, rfl⟩ :=
        mem_namespaceLookup_iff.1 h
      exact .inr (.keyed function free literal)
  | call =>
      obtain ⟨line, id, field, rfl, function, free, literal, rfl⟩ := mem_attributeCall_iff.1 h
      exact .inr (.spelled function free literal)
  | _ => cases h

/-- **A stop lists all of its uncertain uses.** -/
theorem Uncertain.mem_own {v : Visit} (h : v.Uncertain table r) : r ∈ v.own table := by
  cases h with
  | spelled function free literal =>
      exact mem_attributeCall_iff.2 ⟨_, _, _, rfl, function, free, literal, rfl⟩
  | @keyed s line st id key arguments indices function free literal =>
      exact mem_namespaceLookup_iff.2
        ⟨line, id, arguments, key, rfl, function, free, literal, rfl⟩
  | @duck s line object field inside missing =>
      rw [own_attribute inside]
      rcases fieldReference_cases table (table.fieldOwner s object).2 line field with
        ⟨c, j, known, bound, -⟩ | ⟨-, eq⟩
      · exact absurd bound (missing c j known)
      · rw [eq]
        exact List.mem_append_right _ List.mem_cons_self

end Visit

/-! ### The uses in a file -/

/-- The uses of names in a file that only run time can confirm. -/
inductive UncertainUse (table : SymbolTable) (nodes : List Node) : Reference → Prop where
  /-- One at a stop of the second pass. -/
  | read {r : Reference} {v : Visit} (stop : Visited table nodes v) (use : v.Uncertain table r) :
      UncertainUse table nodes r
  /-- A name that `__all__` lists. -/
  | listed {names : List String} {name : String} (exports : table.exports = some names)
      (there : name ∈ names) :
      UncertainUse table nodes
        (table.reference (table.moduleSymbol name) name table.exportsLine .dynamicUncertain)
  /-- A name whose import may not run. -/
  | conditional {i : Nat} {symbol : Symbol} (there : table.symbols[i]? = some symbol)
      (imported : symbol.id.kind = .imported) (optional : symbol.isConditional) :
      UncertainUse table nodes
        (table.reference (some i) symbol.name symbol.line .dynamicUncertain)

/-- An uncertain use is a reference with a name, a line and maybe a target. -/
theorem UncertainUse.exists_reference {table : SymbolTable} {nodes : List Node} {r : Reference}
    (h : UncertainUse table nodes r) :
    ∃ target name line, r = table.reference target name line .dynamicUncertain := by
  cases h with
  | read stop use => cases use <;> exact ⟨_, _, _, rfl⟩
  | listed => exact ⟨_, _, _, rfl⟩
  | conditional => exact ⟨_, _, _, rfl⟩

theorem UncertainUse.resolution {table : SymbolTable} {nodes : List Node} {r : Reference}
    (h : UncertainUse table nodes r) : r.resolution = .dynamicUncertain := by
  obtain ⟨target, name, line, rfl⟩ := h.exists_reference
  rfl

section

variable {file : SourceFile} {nodes : List Node} {lineCount : Nat} {r : Reference}

/-- **The references of an index are definite or uncertain uses.** -/
theorem definite_or_uncertainUse (h : r ∈ (indexNodes file nodes lineCount).references) :
    Definite (definitionsOf file nodes) r ∨ UncertainUse (definitionsOf file nodes) nodes r := by
  rcases List.mem_append.1 h with h | h
  · rcases List.mem_append.1 h with h | h
    · obtain ⟨w, stop, own⟩ := mem_occurrences_iff.1 h
      exact (Visit.definite_or_uncertain own).imp_right (.read stop)
    · obtain ⟨name, there, rfl⟩ := List.mem_map.1 h
      cases exports : (definitionsOf file nodes).exports with
      | none =>
          rw [exports] at there
          cases there
      | some names =>
          rw [exports] at there
          exact .inr (.listed exports there)
  · obtain ⟨⟨symbol, i⟩, there, rfl⟩ := List.mem_map.1 h
    obtain ⟨there, holds⟩ := List.mem_filter.1 there
    obtain ⟨imported, optional⟩ := Bool.and_eq_true_iff.1 holds
    exact .inr (.conditional (List.mk_mem_zipIdx_iff_getElem?.1 there)
      (of_decide_eq_true imported) optional)

/-- **A reference that is not uncertain is definite.** -/
theorem definite_of_mem_references (h : r ∈ (indexNodes file nodes lineCount).references)
    (known : r.resolution ≠ .dynamicUncertain) : Definite (definitionsOf file nodes) r :=
  (definite_or_uncertainUse h).resolve_right fun uncertain => known uncertain.resolution

/-- **The uncertain references of an index are the uncertain uses in its file.** -/
theorem mem_references_uncertain_iff :
    r ∈ (indexNodes file nodes lineCount).references ∧ r.resolution = .dynamicUncertain ↔
      UncertainUse (definitionsOf file nodes) nodes r := by
  constructor
  · rintro ⟨h, uncertain⟩
    exact (definite_or_uncertainUse h).resolve_left fun definite => definite.resolution uncertain
  · intro h
    refine ⟨?_, h.resolution⟩
    cases h with
    | read stop use =>
        exact List.mem_append_left _
          (List.mem_append_left _ (mem_occurrences_iff.2 ⟨_, stop, use.mem_own⟩))
    | listed exports there =>
        refine List.mem_append_left _ (List.mem_append_right _ (List.mem_map.2 ⟨_, ?_, rfl⟩))
        rwa [exports]
    | conditional there imported optional =>
        refine List.mem_append_right _ (List.mem_map.2 ⟨(_, _), List.mem_filter.2 ⟨?_, ?_⟩, rfl⟩)
        · exact List.mk_mem_zipIdx_iff_getElem?.2 there
        · simp [imported, optional]

end

end CodeSurvey
