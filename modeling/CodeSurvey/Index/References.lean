import CodeSurvey.Index.Definitions

/-!
# The second pass: references

Reads the syntax of a file again, now with its table, and lists every use of a name in source
order.

* `SymbolTable.nameReference` is the use of a plain name: resolved if it means a symbol, nothing if
  it is hidden, unknown otherwise.
* `SymbolTable.importReferences` is the use of an attribute through an imported name.
* `occurrences` is the pass. In a target, plain names are stores and no uses, but the objects of
  attributes and the parts of subscripts are read.
-/

namespace CodeSurvey

open Python (Node)

namespace Python.Node

/-- For `a.b.c`, the root name `a` with its line and the attributes `["b", "c"]`. -/
def chain : Node → Option ((Nat × String) × List String)
  | .name line id              => some ((line, id), [])
  | .attribute object _ field => (chain object).map fun (root, path) => (root, path ++ [field])
  | _                          => none

/-- The second part in the parentheses of a call; a generator that is the only argument stands there
with its own parts. -/
def secondPart : List Node → Option Node
  | [.comprehension _ items] => items[1]?
  | arguments                => arguments[1]?

end Python.Node

namespace SymbolTable

/-! ### Single references -/

/-- A use of a name, with the symbol it means if that is known. -/
def reference (table : SymbolTable) (target : Option Nat) (name : String) (line : Nat)
    (resolution : Resolution) : Reference :=
  { target := (target.bind fun i => table.symbols[i]?).map Symbol.id
    name, access := none, file := table.file, line, resolution }

/-- The use of a plain name. -/
def nameReference (table : SymbolTable) (scope line : Nat) (name : String) : List Reference :=
  match table.lookup scope name with
  | some (.symbol i) => [table.reference (some i) name line .resolved]
  | some .hidden     => []
  | none             => [table.reference none name line .unknown]

/-- The import behind a name, if the name means an import symbol. -/
def importBehind (table : SymbolTable) (scope : Nat) (name : String) : Option (Nat × Nat) :=
  match table.lookup scope name with
  | some (.symbol i) => (table.symbols[i]?.bind Symbol.source).map fun source => (i, source)
  | _                => none

/-- The uses in an attribute that is reached through an imported name: the import symbol and the
attribute itself, whose target other files know. -/
def importReferences (table : SymbolTable) (scope line : Nat) (field : String) (node : Node) :
    Option (List Reference) := do
  let ((rootLine, root), attributes) ← node.chain
  let (i, source) ← table.importBehind scope root
  pure
    [table.reference (some i) root rootLine .resolved,
     { table.reference none field line .unknown with access := some { source, attributes } }]

/-- The uses of the object in `name.field`, and the class body that the field is looked up in. A
class name leads to its body; `self` and `cls` lead to the class around them. -/
def objectReferences (table : SymbolTable) (scope line : Nat) (name : String) :
    List Reference × Option Nat :=
  match table.lookup scope name with
  | some (.symbol i) =>
    if (table.symbols[i]?.map fun s => s.id.kind) = some .classDef then
      ([table.reference (some i) name line .resolved], table.classBodies.lookup i)
    else (table.nameReference scope line name, none)
  | some .hidden =>
    if name = "self" ∨ name = "cls" then ([], table.enclosingClass scope)
    else (table.nameReference scope line name, none)
  | none => (table.nameReference scope line name, none)

/-- The use of a field that is looked up in a class body, if one is known. -/
def fieldReference (table : SymbolTable) (body : Option Nat) (line : Nat) (field : String) :
    Reference :=
  match body.bind fun c => (table.scope c).find field with
  | some (.symbol j) => table.reference (some j) field line .resolved
  | _                => table.reference none field line .dynamicUncertain

/-! ### Names in strings -/

/-- The functions that take the name of an attribute as a string. -/
def attributeFunctions : List String :=
  ["getattr", "setattr", "hasattr", "delattr"]

/-- The functions that give a namespace as a dictionary. -/
def namespaceFunctions : List String :=
  ["globals", "locals", "vars"]

/-- The use of a name in `getattr(object, "name")` and the like, unless the file binds the function
itself. -/
def attributeCall (table : SymbolTable) (scope : Nat) (callee : Node) (arguments : List Node) :
    List Reference :=
  match callee with
  | .name line id =>
    if id ∈ attributeFunctions ∧ (table.lookup scope id).isNone then
      match (Node.secondPart arguments).bind Node.literal? with
      | some field => [table.reference none field line .dynamicUncertain]
      | none       => []
    else []
  | _ => []

/-- The use of a name in `globals()["name"]` and the like, unless the file binds the function
itself. -/
def namespaceLookup (table : SymbolTable) (scope : Nat) (value : Node) (indices : List Node) :
    List Reference :=
  match value with
  | .call (.name line id) _ =>
    if id ∈ namespaceFunctions ∧ (table.lookup scope id).isNone then
      match indices.head?.bind Node.literal? with
      | some key =>
        let target := match (table.scope 0).find key with
          | some (.symbol i) => some i
          | _                => none
        [table.reference target key line .dynamicUncertain]
      | none => []
    else []
  | _ => []

end SymbolTable

/-! ### The pass -/

mutual

/-- The uses of names in a node that stands in a scope, in source order. `isStore` says that the
node is an assignment target. -/
def occurrences (table : SymbolTable) (scope : Nat) (isStore : Bool) : Node → List Reference
  | .name line id => if isStore then [] else table.nameReference scope line id
  | .attribute object line field =>
    if isStore then occurrences table scope false object
    else
      match table.importReferences scope line field (.attribute object line field) with
      | some references => references
      | none            =>
        match object with
        | .name objectLine id =>
          let (references, body) := table.objectReferences scope objectLine id
          references ++ [table.fieldReference body line field]
        | _ =>
          occurrences table scope false object ++
            [table.reference none field line .dynamicUncertain]
  | .subscript value indices =>
    table.namespaceLookup scope value indices ++ occurrences table scope false value ++
      occurrencesIn table scope false indices
  | .call callee arguments =>
    table.attributeCall scope callee arguments ++ occurrences table scope false callee ++
      occurrencesIn table scope false arguments
  | .bundle _ items          => occurrencesIn table scope isStore items
  | .string _ holes          => occurrencesIn table scope false holes
  | .keyword _ value         => occurrences table scope false value
  | .group items             => occurrencesIn table scope false items
  | .branch items            => occurrencesIn table scope false items
  | .lambda site params body =>
    occurrencesIn table scope false params ++
      occurrences table (table.scopeAt site scope) false body
  | .comprehension site items => occurrencesIn table (table.scopeAt site scope) false items
  | .forIn target rest =>
    occurrences table scope true target ++ occurrencesIn table scope false rest
  | .forLoop target rest =>
    occurrences table scope true target ++ occurrencesIn table scope false rest
  | .walrus _ _ value => occurrences table scope false value
  | .assign _ target hint value =>
    occurrences table scope true target ++ occurrences table scope false hint ++
      occurrences table scope false value
  | .augment target value =>
    occurrences table scope false target ++ occurrences table scope false value
  | .function _ _ site params returns body =>
    occurrencesIn table scope false params ++ occurrences table scope false returns ++
      occurrencesIn table (table.scopeAt site scope) false body
  | .classDef _ _ site bases body =>
    occurrencesIn table scope false bases ++
      occurrencesIn table (table.scopeAt site scope) false body
  | .decorated decorators definition =>
    occurrencesIn table scope false decorators ++ occurrences table scope false definition
  | .param _ hint fallback =>
    occurrences table scope false hint ++ occurrences table scope false fallback
  | .asTarget _  => []
  | .imports _ _ => []
  | .globals _   => []

/-- The uses of names in nodes that stand in a scope. -/
def occurrencesIn (table : SymbolTable) (scope : Nat) (isStore : Bool) :
    List Node → List Reference
  | []           => []
  | node :: rest => occurrences table scope isStore node ++ occurrencesIn table scope isStore rest

end

end CodeSurvey
