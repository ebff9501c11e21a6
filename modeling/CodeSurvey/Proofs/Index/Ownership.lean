import CodeSurvey.Proofs.Index.Edits
import CodeSurvey.Proofs.Index.Places
import CodeSurvey.Proofs.Index.Uses

/-!
# Whose symbols and uses an index holds

The symbols of an index are those of its file, and so are the places where it uses a name.

* `Works`: a property that binding names, noting imports and opening scopes keeps.
* `Keeps`: what every operation of the first pass keeps is kept by the pass (`collect_keeps`). The
  operations get their lines from the nodes.
* `Owns`: the symbols of a table are those of a file.
* `owned_of_indexSource`: so an index holds nothing of other files.
-/

namespace CodeSurvey

open Python (Node)

/-! ### What the first pass keeps -/

namespace SymbolTable

/-- A property of tables that the operations of the first pass on names, imports and scopes keep, if
they are at one of the given lines. The pass works in scopes that are there, and opens no second
module scope. A definition that is no import has no source, and a name is hidden only where it is
bound to no symbol. -/
structure Works (lines : Nat → Prop) (I : SymbolTable → Prop) : Prop where
  define  : ∀ t scope definition, lines definition.line → scope < t.scopes.length →
    definition.kind ≠ .imported → definition.source = none → I t →
    I (t.bindSymbol scope definition).2
  record  : ∀ t scope entry, lines entry.line → scope < t.scopes.length → I t →
    I (t.addImport scope entry)
  hide    : ∀ t scope name, (∀ b, (t.scope scope).find name = some b → b = .hidden) → I t →
    I (t.bind scope name .hidden)
  declare : ∀ t scope names, I t → I (t.declareGlobal scope names)
  enter   : ∀ t site kind parent qualifier, parent < t.scopes.length → kind ≠ .module → I t →
    I (t.push site kind parent qualifier).2
  body    : ∀ t bodies, I t → I { t with classBodies := bodies }

/-- A property that also what `__all__` lists does not matter for. -/
structure Keeps (lines : Nat → Prop) (I : SymbolTable → Prop) : Prop extends Works lines I where
  listed  : ∀ t exports exportsLine, I t → I { t with exports, exportsLine }

/-- The property holds of a table, and a scope is there. -/
def Holds (I : SymbolTable → Prop) (scope : Nat) (t : SymbolTable) : Prop :=
  scope < t.scopes.length ∧ I t

/-- What holds while the pass stands in a scope holds in the scopes around it. -/
theorem Holds.outward {I : SymbolTable → Prop} {t : SymbolTable} {outer inner : Nat}
    (h : Holds I inner t) (le : outer ≤ inner) : Holds I outer t :=
  ⟨le.trans_lt h.1, h.2⟩

@[simp] theorem length_addImport (t : SymbolTable) (s : Nat) (entry : Import) :
    (t.addImport s entry).scopes.length = t.scopes.length := by
  rw [addImport]
  split
  · rfl
  · exact length_bindSymbol ..

/-- All imports of a clause are on its line. -/
theorem importsOf_line {clause : Python.ImportClause} {line : Nat} {c : Bool} {entry : Import}
    (h : entry ∈ importsOf clause line c) : entry.line = line := by
  cases clause with
  | modules names =>
      obtain ⟨_, -, rfl⟩ := List.mem_map.1 h
      rfl
  | members _ _ names =>
      obtain ⟨_, -, rfl⟩ := List.mem_map.1 h
      rfl
  | everything => rw [List.mem_singleton.1 h]

namespace Works

variable {lines : Nat → Prop} {I : SymbolTable → Prop} (keeps : Works lines I) {t : SymbolTable}
  {s : Nat}

/-- A run of steps that each keep the property. -/
theorem foldl {α : Type} {step : SymbolTable → α → SymbolTable} (items : List α)
    (each : ∀ t, ∀ x ∈ items, I t → I (step t x)) (h : I t) : I (items.foldl step t) := by
  induction items generalizing t with
  | nil => exact h
  | cons x rest ih =>
      exact ih (fun t y later => each t y (List.mem_cons_of_mem _ later))
        (each t x List.mem_cons_self h)

include keeps

theorem hideAll (names : List String) (h : Holds I s t) : Holds I s (t.hide s names) := by
  refine foldl names (fun t name _ h => ?_) h
  split
  · exact h
  · rename_i free
    refine ⟨by simpa using h.1, keeps.hide t s name (fun b bound => ?_) h.2⟩
    rw [bound] at free
    exact absurd rfl free

/-- Parameters are bound in a scope that binds no symbol. -/
theorem bindParams (params : List Node) (h : Holds I s t)
    (fresh : ∀ x b, (t.scope s).find x = some b → b = .hidden) :
    Holds I s (t.bindParams s params) := by
  have all : ∀ t : SymbolTable, ∀ name ∈ Node.paramNames params,
      (Holds I s t ∧ ∀ x b, (t.scope s).find x = some b → b = .hidden) →
        Holds I s (t.bind s name .hidden) ∧
          ∀ x b, ((t.bind s name .hidden).scope s).find x = some b → b = .hidden := by
    rintro t name - ⟨h, fresh⟩
    exact ⟨⟨by simpa using h.1, keeps.hide t s name (fresh name) h.2⟩, hidden_bind name fresh⟩
  exact (foldl _ all ⟨h, fresh⟩).1

/-- Targets are bound on their own lines. -/
theorem bindTargets (target : Node) (good : ∀ line ∈ target.places, lines line)
    (h : Holds I s t) : Holds I s (t.bindTargets s target) := by
  refine foldl _ (fun t (line, name) there h => ⟨by simpa using h.1, ?_⟩) h
  exact keeps.define t s _ (good line (Node.targets_places target there)) h.1 nofun rfl h.2

/-- Imports are recorded on the line of their clause. -/
theorem addImports {line : Nat} (good : lines line) (c : Bool) (clause : Python.ImportClause)
    (h : Holds I s t) : Holds I s (t.addImports s line c clause) := by
  refine foldl _ (fun t entry there h => ⟨by simpa using h.1, ?_⟩) h
  exact keeps.record t s entry (importsOf_line there ▸ good) h.1 h.2

/-- A scope that is opened is there. -/
theorem push (site : Nat) (kind : ScopeKind) (qualifier : String) (other : kind ≠ .module)
    (h : Holds I s t) : Holds I t.scopes.length (t.push site kind s qualifier).2 :=
  ⟨by simp [SymbolTable.push], keeps.enter t site kind s qualifier h.1 other h.2⟩

/-- A function is entered on its line, and the pass goes on in its scope. -/
theorem enterFunction {line : Nat} (good : lines line) (id : String) (site : Nat)
    (params : List Node) (d : Bool) (h : Holds I s t) :
    Holds I (t.enterFunction s line id site params d).1
      (t.enterFunction s line id site params d).2 := by
  have bound : Holds I s (t.bindSymbol s ⟨id, .function, line, d, false, none⟩).2 :=
    ⟨by simpa using h.1, keeps.define t s _ good h.1 nofun rfl h.2⟩
  exact keeps.bindParams params (keeps.push site .function _ nofun bound) (fresh_push _ _ _ _ _)

theorem enterClass {line : Nat} (good : lines line) (id : String) (site : Nat) (d : Bool)
    (h : Holds I s t) :
    Holds I (t.enterClass s line id site d).1 (t.enterClass s line id site d).2 := by
  have bound : Holds I s (t.bindSymbol s ⟨id, .classDef, line, d, false, none⟩).2 :=
    ⟨by simpa using h.1, keeps.define t s _ good h.1 nofun rfl h.2⟩
  have opened := keeps.push site .classBody
    ((t.bindSymbol s ⟨id, .classDef, line, d, false, none⟩).2.qualify s id) nofun bound
  simp only [SymbolTable.enterClass]
  split
  · exact ⟨opened.1, keeps.body _ _ opened.2⟩
  · exact opened

end Works

namespace Keeps

variable {lines : Nat → Prop} {I : SymbolTable → Prop} (keeps : Keeps lines I) {t : SymbolTable}
  {s : Nat}

include keeps

/-- Exports add no symbols and no imports. -/
theorem setExports (line : Nat) (target value : Node) (h : Holds I s t) :
    Holds I s (t.setExports s line target value) := by
  rw [SymbolTable.setExports.eq_def]
  split
  · split
    · exact ⟨h.1, keeps.listed t _ _ h.2⟩
    · exact h
  · exact h

theorem addExports (target value : Node) (h : Holds I s t) :
    Holds I s (t.addExports s target value) := by
  rw [SymbolTable.addExports.eq_def]
  split
  · split
    · exact ⟨h.1, keeps.listed t _ t.exportsLine h.2⟩
    · exact h
  · exact h

end Keeps

end SymbolTable

open SymbolTable

variable {lines : Nat → Prop} {I : SymbolTable → Prop}

mutual

/-- **What every operation of the first pass keeps is kept by the pass**, over a node that has its
lines among the given ones. -/
theorem collect_keeps (keeps : Keeps lines I) (s : Nat) (c d : Bool) :
    ∀ (node : Node) {t : SymbolTable}, (∀ line ∈ node.places, lines line) → Holds I s t →
      Holds I s (collect s c d node t)
  | .function line id site params _ body, t, good, h =>
      have ⟨own, inside⟩ := List.forall_mem_cons.1 good
      have inBody := (List.forall_mem_append.1 (List.forall_mem_append.1 inside).2).2
      (collectAll_keeps keeps _ false body inBody
        (keeps.enterFunction own id site params d h)).outward
          (enterFunction_fst t s line id site params d ▸ h.1.le)
  | .classDef line id site _ body, t, good, h =>
      have ⟨own, inside⟩ := List.forall_mem_cons.1 good
      (collectAll_keeps keeps _ false body (List.forall_mem_append.1 inside).2
        (keeps.enterClass own id site d h)).outward
          (enterClass_fst t s line id site d ▸ h.1.le)
  | .decorated _ definition, _, good, h =>
      collect_keeps keeps s c true definition (List.forall_mem_append.1 good).2 h
  | .imports line clause, _, good, h =>
      keeps.addImports (good line List.mem_cons_self) c clause h
  | .globals names, t, _, h =>
      ⟨by simpa [collect, declareGlobal] using h.1, keeps.declare t s names h.2⟩
  | .assign line target _ value, _, good, h =>
      have ⟨inTarget, inside⟩ := List.forall_mem_append.1 (List.forall_mem_append.1 good).2
      collect_keeps keeps s c false value (List.forall_mem_append.1 inside).2
        (keeps.setExports line target value (keeps.bindTargets target inTarget h))
  | .augment target value, _, good, h =>
      collect_keeps keeps s c false value (List.forall_mem_append.1 good).2
        (keeps.addExports target value h)
  | .walrus _ _ value, t, good, h =>
      have ⟨own, inside⟩ := List.forall_mem_cons.1 good
      collect_keeps keeps s c false value inside
        ⟨by simpa using h.1, keeps.define t s _ own h.1 nofun rfl h.2⟩
  | .forLoop target rest, _, good, h =>
      collectAll_keeps keeps s c rest (List.forall_mem_append.1 good).2
        (keeps.hideAll target.mentioned h)
  | .lambda site params body, _, good, h =>
      (collect_keeps keeps _ c false body (List.forall_mem_append.1 good).2 (keeps.bindParams params
        (keeps.push site .lambda _ nofun h) (fresh_push _ _ _ _ _))).outward h.1.le
  | .comprehension site items, _, good, h =>
      (collectAll_keeps keeps _ c items good
        (keeps.push site .comprehension _ nofun h)).outward h.1.le
  | .forIn target rest, _, good, h =>
      have ⟨inTarget, inside⟩ := List.forall_mem_append.1 good
      collectAll_keeps keeps s c rest inside
        (collect_keeps keeps s c false target inTarget (keeps.hideAll target.mentioned h))
  | .asTarget target, _, _, h => keeps.hideAll target.mentioned h
  | .branch items, _, good, h => collectAll_keeps keeps s true items good h
  | .name _ _, _, _, h => h
  | .string _ items, _, good, h | .bundle _ items, _, good, h | .group items, _, good, h =>
      collectAll_keeps keeps s c items good h
  | .attribute object _ _, _, good, h =>
      collect_keeps keeps s c false object (List.forall_mem_cons.1 good).2 h
  | .subscript value items, _, good, h | .call value items, _, good, h =>
      have ⟨first, inside⟩ := List.forall_mem_append.1 good
      collectAll_keeps keeps s c items inside (collect_keeps keeps s c false value first h)
  | .keyword _ value, _, good, h => collect_keeps keeps s c false value good h
  | .param _ _ _, _, _, h => h

/-- What every operation of the first pass keeps is kept by the pass over several nodes. -/
theorem collectAll_keeps (keeps : Keeps lines I) (s : Nat) (c : Bool) :
    ∀ (nodes : List Node) {t : SymbolTable}, (∀ line ∈ Node.placesIn nodes, lines line) →
      Holds I s t → Holds I s (collectAll s c nodes t)
  | [], _, _, h => h
  | node :: rest, _, good, h =>
      have ⟨first, later⟩ := List.forall_mem_append.1 good
      collectAll_keeps keeps s c rest later (collect_keeps keeps s c false node first h)

end

/-- What holds of an empty table and is kept holds of the table of a file. -/
theorem holds_definitionsOf (keeps : Keeps lines I) (file : SourceFile) {nodes : List Node}
    (good : ∀ line ∈ Node.placesIn nodes, lines line) (start : I (.empty file.path)) :
    I (definitionsOf file nodes) := by
  have before : Holds I 0 (.empty file.path) := ⟨Nat.zero_lt_one, start⟩
  exact (collectAll_keeps keeps 0 false nodes good before).2

/-! ### Symbols -/

namespace SymbolTable

/-- The table is that of a file, and its symbols are that file's. -/
structure Owns (path : Path) (t : SymbolTable) : Prop where
  file    : t.file = path
  symbols : ∀ symbol ∈ t.symbols, symbol.id.file = path

/-- A new symbol has an identity in the file that defines it. -/
theorem Owns.define {path : Path} {t : SymbolTable} (h : Owns path t) (s : Nat) (d : Definition) :
    Owns path (t.bindSymbol s d).2 := by
  rcases t.bindSymbol_cases s d with eq | ⟨-, ⟨i, -, eq⟩ | ⟨-, eq⟩⟩
  · rwa [eq]
  · rw [eq]
    exact ⟨h.file, h.symbols⟩
  · rw [eq]
    refine ⟨h.file, fun symbol there => ?_⟩
    rcases List.mem_append.1 there with old | new
    · exact h.symbols symbol old
    · rw [List.mem_singleton.1 new]
      exact h.file

/-- **All symbols of a file are its own.** -/
theorem keeps_owns (path : Path) : Keeps (fun _ => True) (Owns path) where
  define t s d _ _ _ _ h := h.define s d
  record t s entry _ _ h := by
    have noted : Owns path { t with imports := t.imports ++ [entry] } := ⟨h.file, h.symbols⟩
    rw [addImport]
    split
    · exact noted
    · exact noted.define s _
  hide _ _ _ _ h      := ⟨h.file, h.symbols⟩
  declare _ _ _ h     := ⟨h.file, h.symbols⟩
  enter _ _ _ _ _ _ _ h := ⟨h.file, h.symbols⟩
  body _ _ h          := ⟨h.file, h.symbols⟩
  listed _ _ _ h      := ⟨h.file, h.symbols⟩

end SymbolTable

theorem owns_definitionsOf (file : SourceFile) (nodes : List Node) :
    Owns file.path (definitionsOf file nodes) :=
  holds_definitionsOf (keeps_owns file.path) file (fun _ _ => trivial) ⟨rfl, nofun⟩

/-! ### Indexes -/

/-- An index holds the symbols and the uses of its own file. -/
structure FileIndex.Owned (index : FileIndex) : Prop where
  symbols    : ∀ symbol ∈ index.symbols, symbol.id.file = index.path
  references : ∀ r ∈ index.references, r.file = index.path

/-- **An index speaks of its own file**: so do its symbols and its references. -/
theorem owned_indexNodes (file : SourceFile) (nodes : List Node) (lineCount : Nat) :
    (indexNodes file nodes lineCount).Owned := by
  have owns := owns_definitionsOf file nodes
  constructor
  · intro symbol h
    obtain ⟨⟨old, i⟩, there, rfl⟩ := List.mem_map.1 h
    exact owns.symbols old (List.fst_mem_of_mem_zipIdx there)
  · intro r h
    rcases definite_or_uncertainUse h with definite | uncertain
    · exact definite.file.trans owns.file
    · obtain ⟨target, name, line, rfl⟩ := uncertain.exists_reference
      exact owns.file

/-- **An index holds the symbols and the uses of its own file.** -/
theorem owned_of_indexSource {file : SourceFile} {source : String} {index : FileIndex}
    (h : indexSource file source = .ok index) : index.Owned := by
  rw [indexSource] at h
  split at h
  · cases h
    exact owned_indexNodes ..
  · cases h

end CodeSurvey
