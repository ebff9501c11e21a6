import CodeSurvey.Text.Lines

/-!
# Documents with hand-written sections

A document of a directory may hold sections that people wrote. When it is written again, those stay
and the generated ones are replaced.

A section starts at a line `@name:`. What stands before the first section is kept like one.

* `handwritten` are the sections of a text that people wrote.
* `mergeDocument` puts new sections after them.
-/

namespace CodeSurvey

/-- The names of the sections that are generated. -/
def generatedSections : List String :=
  ["module", "path", "deps", "exports", "dead_code"]

/-- Whether a character can stand in a section's name. -/
def isSectionChar (c : Char) : Bool :=
  c.isAlphanum || c == '_'

/-- The name of the section that a line starts, if it starts one. -/
def sectionName? (line : String) : Option String :=
  match line.toList with
  | '@' :: rest =>
    let name := rest.takeWhile isSectionChar
    match name, rest.dropWhile isSectionChar with
    | first :: _, ':' :: _ => if first.isDigit then none else some (String.ofList name)
    | _, _                 => none
  | _           => none

/-- Lines cut at those that start a section: what stands before the first one, and the sections. -/
def splitSections : List String → List String × List (List String)
  | []            => ([], [])
  | line :: later =>
    let (before, sections) := splitSections later
    if (sectionName? line).isSome then ([], (line :: before) :: sections)
    else (line :: before, sections)

/-- Whether lines are a generated section. -/
def isGenerated (lines : List String) : Bool :=
  match lines.head?.bind sectionName? with
  | some name => generatedSections.contains name
  | none      => false

/-- The parts of a text that people wrote, in order, without those that are blank. -/
def handwritten (text : String) : List String :=
  let (before, sections) := splitSections (Text.lines text)
  ((before :: sections).filter fun part => !isGenerated part).filterMap fun part =>
    let whole := Text.unlines part
    if Text.isBlankText whole then none else some (Text.trimEnd whole)

/-- A text with its generated sections replaced. -/
def mergeDocument (existing generated : String) : String :=
  match handwritten existing with
  | []    => generated
  | parts => String.intercalate "\n\n" parts ++ "\n\n" ++ generated

end CodeSurvey
