import CodeSurvey.Path

/-!
# Source files

What discovery says about a file: where it is, how large it is, its language, and whether it is a
test.
-/

namespace CodeSurvey

/-- The languages that are told apart; only the first is indexed. -/
inductive Language where
  | python
  | javascript
  | typescript
  | rust
  | go
  | java
  | unknown
deriving DecidableEq

namespace Language

/-- The language of a file extension in lower case. -/
def ofExtension : Option String → Language
  | some "py" | some "pyi" | some "pyw"  => python
  | some "js" | some "jsx" | some "mjs"  => javascript
  | some "ts" | some "tsx"               => typescript
  | some "rs"                            => rust
  | some "go"                            => go
  | some "java"                          => java
  | _                                    => unknown

/-- The name of a language. -/
def name : Language → String
  | python     => "python"
  | javascript => "javascript"
  | typescript => "typescript"
  | rust       => "rust"
  | go         => "go"
  | java       => "java"
  | unknown    => "unknown"

/-- All languages. -/
def all : List Language :=
  [python, javascript, typescript, rust, go, java, unknown]

end Language

/-- A file to survey: where it lies, its path below the project's root, its size in bytes, its
language, and whether it is a test. -/
structure SourceFile where
  location : Path
  path     : Path
  size     : Nat
  language : Language
  isTest   : Bool
deriving DecidableEq

/-- Whether the file is the marker of a package. -/
def SourceFile.isPackageMarker (file : SourceFile) : Bool :=
  file.path.stem = some "__init__"

end CodeSurvey
