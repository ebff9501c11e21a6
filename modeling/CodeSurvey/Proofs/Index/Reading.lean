import CodeSurvey.Proofs.Index.Forms

/-!
# Nodes that the first pass read

`ReadIn table scope node` says that the first pass came to a node while it stood in a scope, on its
way to a table. For every kind of node there is a lemma that says which of its parts were then
read, and in which scope.

* `ReadIn.function`, `ReadIn.lambda`, `ReadIn.classDef` and `ReadIn.comprehension`: a form that was
  read has a scope of its own in the table, in which its parameters or variables are hidden and its
  body was read.
-/

namespace CodeSurvey

open Python (Node)
open SymbolTable
open Python.Node

/-! ### The scope of a form -/

namespace SymbolTable

variable {t t' : SymbolTable}

/-- Every parameter of a form hides its name in the scope of the form. -/
theorem find_bindParams {i : Nat} {params : List Node} {x : String} (h : i < t.scopes.length)
    (hx : x ∈ paramNames params) : ((t.bindParams i params).scope i).find x = some .hidden := by
  -- once a parameter is hidden, the parameters after it leave it so
  have fold : ∀ (names : List String) (t : SymbolTable), i < t.scopes.length →
      x ∈ names ∨ (t.scope i).find x = some .hidden →
      ((names.foldl (fun t name => t.bind i name .hidden) t).scope i).find x = some .hidden := by
    intro names
    induction names with
    | nil => exact fun _ _ hx => hx.resolve_left List.not_mem_nil
    | cons name rest ih =>
        intro t hi hx
        refine ih _ (by simpa using hi) ?_
        rw [find_bind]
        by_cases e : name = x
        · exact .inr (if_pos ⟨rfl, hi, e⟩)
        · rw [if_neg fun f => e f.2.2]
          exact hx.imp_left fun f => (List.mem_cons.1 f).resolve_left (Ne.symm e)
  exact fold _ t h (.inl hx)

/-- A name that is hidden is bound, if not by the hiding then before it. -/
theorem find_hide {i : Nat} {names : List String} {x : String} (h : i < t.scopes.length)
    (hx : x ∈ names) : ∃ b, ((t.hide i names).scope i).find x = some b := by
  induction names generalizing t with
  | nil => cases hx
  | cons name rest ih =>
      have kept : ∀ u : SymbolTable, Grows u (u.hide i rest) := fun u =>
        Edits.grows (edits_hide (P := fun _ _ => True) i rest u)
      have first : ∃ u : SymbolTable, i < u.scopes.length ∧ t.hide i (name :: rest) = u.hide i rest ∧
          ∃ b, (u.scope i).find name = some b := by
        by_cases e : ((t.scope i).find name).isSome
        · exact ⟨t, h, by simp [hide, e], Option.isSome_iff_exists.1 e⟩
        · exact ⟨t.bind i name .hidden, by simpa using h, by simp [hide, e], .hidden, by
            simp [find_bind, h]⟩
      obtain ⟨u, hu, eq, b, hb⟩ := first
      rw [eq]
      rcases List.mem_cons.1 hx with rfl | hx
      · exact ⟨b, (kept u).find i hu _ b hb⟩
      · exact ih hu hx

/-- `inner` is the scope opened for the form at a site, inside `outer`. -/
structure Opened (t : SymbolTable) (site outer inner : Nat) (kind : ScopeKind) : Prop where
  lt     : inner < t.scopes.length
  pos    : 0 < inner
  site   : (site, inner) ∈ t.sites
  parent : (t.scope inner).parent = some outer
  kind   : (t.scope inner).kind = kind

/-- A scope stays open for its form while the table grows. -/
theorem Opened.grows {site outer inner : Nat} {kind : ScopeKind}
    (h : Opened t site outer inner kind) (g : Grows t t') : Opened t' site outer inner kind where
  lt := h.lt.trans_le g.length
  pos := h.pos
  site := g.sites _ h.site
  parent := (g.parent _ h.lt).trans h.parent
  kind := (g.kind _ h.lt).trans h.kind

/-- A new scope is open for the form that it is pushed for. -/
theorem opened_push (t : SymbolTable) (site : Nat) {outer : Nat} (kind : ScopeKind) (q : String)
    (h : outer < t.scopes.length) :
    Opened (t.push site kind outer q).2 site outer t.scopes.length kind where
  lt := by simp [push]
  pos := Nat.zero_lt_of_lt h
  site := by simp [push]
  parent := by rw [scope_push_self]
  kind := by rw [scope_push_self]

/-- A scope opened with parameters hides them. -/
theorem opened_bindParams (t : SymbolTable) (site : Nat) {outer : Nat} (kind : ScopeKind)
    (q : String) (params : List Node) (h : outer < t.scopes.length) :
    Opened ((t.push site kind outer q).2.bindParams t.scopes.length params) site outer
        t.scopes.length kind ∧
      ∀ x ∈ paramNames params,
        ((((t.push site kind outer q).2.bindParams t.scopes.length params)).scope
          t.scopes.length).find x = some .hidden := by
  have pushed := opened_push t site kind q h
  have bound : Edits (fun _ _ => True) (t.push site kind outer q).2
      ((t.push site kind outer q).2.bindParams t.scopes.length params) :=
    edits_bindParams _ _ _ (fresh_push _ _ _ _ _)
  exact ⟨pushed.grows bound.grows, fun x hx => find_bindParams pushed.lt hx⟩

/-- Entering a function binds its name outside, then opens its scope and hides its parameters there.
-/
theorem enterFunction_eq (t : SymbolTable) (s line : Nat) (id : String) (site : Nat)
    (params : List Node) (d : Bool) : ∃ (bound : SymbolTable) (q : String),
      bound.scopes.length = t.scopes.length ∧ t.enterFunction s line id site params d =
        (bound.scopes.length,
          (bound.push site .function s q).2.bindParams bound.scopes.length params) :=
  ⟨_, _, length_bindSymbol .., rfl⟩

/-- Entering a class opens its scope. -/
theorem opened_enterClass {s : Nat} (line : Nat) (id : String) (site : Nat) (d : Bool)
    (h : s < t.scopes.length) :
    Opened (t.enterClass s line id site d).2 site s (t.enterClass s line id site d).1
      .classBody := by
  have pushed := opened_push (t.bindSymbol s ⟨id, .classDef, line, d, false, none⟩).2 site
    .classBody ((t.bindSymbol s ⟨id, .classDef, line, d, false, none⟩).2.qualify s id)
    (by simpa using h)
  simp only [enterClass]
  split
  · exact pushed.grows (.of_eq rfl rfl)
  · exact pushed

end SymbolTable

/-! ### Nodes that the first pass read -/

/-- On its way to a table the first pass read a node in a scope. -/
def ReadIn (table : SymbolTable) (scope : Nat) (node : Node) : Prop :=
  ∃ c d t, scope < t.scopes.length ∧ Grows (collect scope c d node t) table

/-- On its way to a table the first pass read nodes in a scope. -/
def ReadAllIn (table : SymbolTable) (scope : Nat) (nodes : List Node) : Prop :=
  ∃ c t, scope < t.scopes.length ∧ Grows (collectAll scope c nodes t) table

/-- The variables of a comprehension. -/
def Python.Node.iterated (items : List Node) : List String :=
  items.flatMap fun
    | .forIn target _ => target.mentioned
    | _               => []

variable {T : SymbolTable} {s : Nat}

/-- The first pass only ever adds to the table. -/
theorem grows_collect (s : Nat) (c d : Bool) (node : Node) (t : SymbolTable)
    (h : s < t.scopes.length) : Grows t (collect s c d node t) :=
  (collect_edits s c d node t h).grows

theorem grows_collectAll (s : Nat) (c : Bool) (nodes : List Node) (t : SymbolTable)
    (h : s < t.scopes.length) : Grows t (collectAll s c nodes t) :=
  (collectAll_edits s c nodes t h).grows

/-- If several nodes were read in a scope, so was each of them. -/
theorem ReadAllIn.mem {node : Node} : ∀ {nodes : List Node}, ReadAllIn T s nodes → node ∈ nodes →
    ReadIn T s node
  | first :: rest, ⟨c, t, h, g⟩, hn => by
      have lt : s < (collect s c false first t).scopes.length :=
        h.trans_le (grows_collect s c false first t h).length
      rcases List.mem_cons.1 hn with rfl | hn
      · exact ⟨c, false, t, h, (grows_collectAll s c rest _ lt).trans g⟩
      · exact ReadAllIn.mem ⟨c, collect s c false first t, lt, g⟩ hn

/-- **The body of a function was read in a scope of its own**, in which its parameters hide what is
outside. -/
theorem ReadIn.function {line site : Nat} {id : String} {params body : List Node} {returns : Node}
    (h : ReadIn T s (.function line id site params returns body)) :
    ∃ inner, Opened T site s inner .function ∧
      (∀ x ∈ paramNames params, (T.scope inner).find x = some .hidden) ∧
        ReadAllIn T inner body := by
  obtain ⟨c, d, t, hs, g⟩ := h
  obtain ⟨bound, q, hlen, heq⟩ := enterFunction_eq t s line id site params d
  simp only [collect, heq] at g
  obtain ⟨opened, hidden⟩ := opened_bindParams bound site .function q params (hlen ▸ hs)
  have later := (grows_collectAll _ false body _ opened.lt).trans g
  exact ⟨_, opened.grows later, fun x hx => later.find _ opened.lt x _ (hidden x hx),
    false, _, opened.lt, g⟩

/-- So was the expression of a `lambda`. -/
theorem ReadIn.lambda {site : Nat} {params : List Node} {body : Node}
    (h : ReadIn T s (.lambda site params body)) :
    ∃ inner, Opened T site s inner .lambda ∧
      (∀ x ∈ paramNames params, (T.scope inner).find x = some .hidden) ∧ ReadIn T inner body := by
  obtain ⟨c, d, t, hs, g⟩ := h
  simp only [collect, enterNameless] at g
  obtain ⟨opened, hidden⟩ := opened_bindParams t site .lambda (t.scope s).qualifier params hs
  have later := (grows_collect _ c false body _ opened.lt).trans g
  exact ⟨_, opened.grows later, fun x hx => later.find _ opened.lt x _ (hidden x hx),
    c, false, _, opened.lt, g⟩

/-- The body of a class was read in the scope of the class. -/
theorem ReadIn.classDef {line site : Nat} {id : String} {bases body : List Node}
    (h : ReadIn T s (.classDef line id site bases body)) :
    ∃ inner, Opened T site s inner .classBody ∧ ReadAllIn T inner body := by
  obtain ⟨c, d, t, hs, g⟩ := h
  simp only [collect] at g
  have opened := opened_enterClass line id site d hs
  have later := (grows_collectAll _ false body _ opened.lt).trans g
  exact ⟨_, opened.grows later, false, _, opened.lt, g⟩

/-- The targets of a `for` in a comprehension are bound in the scope that it stands in. -/
theorem ReadIn.forIn {target : Node} {rest : List Node} (h : ReadIn T s (.forIn target rest)) :
    (∀ x ∈ target.mentioned, ∃ b, (T.scope s).find x = some b) ∧
      ReadIn T s target ∧ ReadAllIn T s rest := by
  obtain ⟨c, d, t, hs, g⟩ := h
  have hidden : Grows t (t.hide s target.mentioned) :=
    Edits.grows (edits_hide (P := fun _ _ => True) ..)
  have lt := hs.trans_le hidden.length
  have read := grows_collect s c false target _ lt
  have later := (grows_collectAll s c rest _ (lt.trans_le read.length)).trans g
  refine ⟨fun x hx => ?_, ⟨c, false, _, lt, later⟩, c, _, lt.trans_le read.length, g⟩
  obtain ⟨b, hb⟩ := find_hide hs hx
  exact ⟨b, (read.trans later).find s lt x b hb⟩

/-- **A comprehension was read in a scope of its own**, in which its variables hide what is outside,
unless it defines them itself. -/
theorem ReadIn.comprehension {site : Nat} {items : List Node}
    (h : ReadIn T s (.comprehension site items)) :
    ∃ inner, Opened T site s inner .comprehension ∧
      (∀ x ∈ iterated items, x ∉ symbolNamesIn items →
        (T.scope inner).find x = some .hidden) ∧ ReadAllIn T inner items := by
  obtain ⟨c, d, t, hs, g⟩ := h
  simp only [collect, enterNameless] at g
  have opened := opened_push t site .comprehension (t.scope s).qualifier hs
  have run := collectAll_edits t.scopes.length c items _ opened.lt
  refine ⟨_, opened.grows (run.grows.trans g), fun x hx hn => ?_, c, _, opened.lt, g⟩
  -- the clause of the variable binds it, and nothing in the comprehension makes it a symbol
  obtain ⟨item, hi, hx⟩ := List.mem_flatMap.1 hx
  have bound : ∃ b, ((collectAll t.scopes.length c items (t.push site .comprehension s
      (t.scope s).qualifier).2).scope t.scopes.length).find x = some b := by
    cases item with
    | forIn target rest =>
        exact (ReadAllIn.mem ⟨c, _, opened.lt, .refl _⟩ hi).forIn.1 x hx
    | _ => cases hx
  obtain ⟨b, hb⟩ := bound
  have plain := run.symbolless (i := t.scopes.length) (x := x)
    (by
      rintro (⟨-, hx⟩ | zero | le)
      · exact hn hx
      · exact opened.pos.ne' zero
      · exact absurd opened.lt (Nat.not_lt.2 le))
    (fun k hk => by rw [scope_push_self] at hk; cases hk)
  have lt := opened.lt.trans_le run.grows.length
  cases b with
  | hidden => exact g.find _ lt x _ hb
  | symbol k => exact absurd hb (plain k)

/-! ### The other nodes that the first pass read -/

/-- The statements of a branch were read where it stands. -/
theorem ReadIn.branch {items : List Node} (h : ReadIn T s (.branch items)) :
    ReadAllIn T s items := by
  obtain ⟨_, _, t, hs, g⟩ := h
  exact ⟨true, t, hs, g⟩

theorem ReadIn.string {value : Option String} {holes : List Node}
    (h : ReadIn T s (.string value holes)) : ReadAllIn T s holes := by
  obtain ⟨c, _, t, hs, g⟩ := h
  exact ⟨c, t, hs, g⟩

theorem ReadIn.bundle {shape : Python.Shape} {items : List Node}
    (h : ReadIn T s (.bundle shape items)) : ReadAllIn T s items := by
  obtain ⟨c, _, t, hs, g⟩ := h
  exact ⟨c, t, hs, g⟩

theorem ReadIn.group {items : List Node} (h : ReadIn T s (.group items)) :
    ReadAllIn T s items := by
  obtain ⟨c, _, t, hs, g⟩ := h
  exact ⟨c, t, hs, g⟩

/-- Of an attribute only the object was read. -/
theorem ReadIn.attribute {object : Node} {line : Nat} {field : String}
    (h : ReadIn T s (.attribute object line field)) : ReadIn T s object := by
  obtain ⟨c, _, t, hs, g⟩ := h
  exact ⟨c, false, t, hs, g⟩

theorem ReadIn.keyword {name : String} {value : Node} (h : ReadIn T s (.keyword name value)) :
    ReadIn T s value := by
  obtain ⟨c, _, t, hs, g⟩ := h
  exact ⟨c, false, t, hs, g⟩

/-- Of a decorated definition only the definition was read, not its decorators. -/
theorem ReadIn.decorated {decorators : List Node} {definition : Node}
    (h : ReadIn T s (.decorated decorators definition)) : ReadIn T s definition := by
  obtain ⟨c, _, t, hs, g⟩ := h
  exact ⟨c, true, t, hs, g⟩

theorem ReadIn.subscript {value : Node} {indices : List Node}
    (h : ReadIn T s (.subscript value indices)) : ReadIn T s value ∧ ReadAllIn T s indices := by
  obtain ⟨c, _, t, hs, g⟩ := h
  have lt := hs.trans_le (grows_collect s c false value t hs).length
  exact ⟨⟨c, false, t, hs, (grows_collectAll s c indices _ lt).trans g⟩, c, _, lt, g⟩

theorem ReadIn.call {callee : Node} {arguments : List Node}
    (h : ReadIn T s (.call callee arguments)) : ReadIn T s callee ∧ ReadAllIn T s arguments := by
  obtain ⟨c, _, t, hs, g⟩ := h
  have lt := hs.trans_le (grows_collect s c false callee t hs).length
  exact ⟨⟨c, false, t, hs, (grows_collectAll s c arguments _ lt).trans g⟩, c, _, lt, g⟩

/-- Of an assignment the value was read, but not the type hint. -/
theorem ReadIn.assign {line : Nat} {target hint value : Node}
    (h : ReadIn T s (.assign line target hint value)) : ReadIn T s value := by
  obtain ⟨c, _, t, hs, g⟩ := h
  have bound : Edits (fun _ _ => True) t
      ((t.bindTargets s target).setExports s line target value) :=
    .trans (edits_bindTargets fun _ _ _ _ => trivial) (edits_setExports ..)
  exact ⟨c, false, _, hs.trans_le bound.grows.length, g⟩

theorem ReadIn.augment {target value : Node} (h : ReadIn T s (.augment target value)) :
    ReadIn T s value := by
  obtain ⟨c, _, t, hs, g⟩ := h
  have noted : Edits (fun _ _ => True) t (t.addExports s target value) := edits_addExports ..
  exact ⟨c, false, _, hs.trans_le noted.grows.length, g⟩

theorem ReadIn.walrus {line : Nat} {id : String} {value : Node}
    (h : ReadIn T s (.walrus line id value)) : ReadIn T s value := by
  obtain ⟨c, _, t, hs, g⟩ := h
  exact ⟨c, false, _, by simpa using hs, g⟩

theorem ReadIn.forLoop {target : Node} {rest : List Node} (h : ReadIn T s (.forLoop target rest)) :
    ReadAllIn T s rest := by
  obtain ⟨c, _, t, hs, g⟩ := h
  have hidden : Edits (fun _ _ => True) t (t.hide s target.mentioned) := edits_hide ..
  exact ⟨c, _, hs.trans_le hidden.grows.length, g⟩

end CodeSurvey
