import CodeSurvey.Document.Merge
import CodeSurvey.Document.Module
import CodeSurvey.Document.Project

/-!
# Writing the documents

Puts the project document in the root and one document in every directory that has modules.

* `writeDocuments` writes them in order and stops at the first that cannot be written; what is
  written stays.
-/

namespace CodeSurvey

/-- The name of the project document. -/
def projectDocumentName : String := "PROJECT.llm"

/-- The name of a directory's document. -/
def contextDocumentName : String := "CONTEXT.llm"

/-- Writes the document of a directory. What people wrote in it stays. -/
def writeContext (tree : FileTree) (directory generated : String) : Option FileTree :=
  (tree.makeDirectories (Path.ofText directory)).toOption.bind fun made =>
    let path := Path.spellBelow directory [contextDocumentName]
    if made.isFile (Path.ofText path) then
      (made.readText path).bind fun existing =>
        made.writeText path (mergeDocument existing generated)
    else made.writeText path generated

/-- What writing leaves behind: the tree, the paths written in order, and whether all went well. -/
structure Written where
  tree      : FileTree
  paths     : List String
  succeeded : Bool

/-- Writes documents of directories below a root, after others. -/
def writeContexts (root : String) : Written → List (Path × String) → Written
  | written, []                            => written
  | written, (directory, generated) :: later =>
    let target := Path.spellBelow root [directory.text]
    match writeContext written.tree target generated with
    | none      => { written with succeeded := false }
    | some tree =>
      writeContexts root
        { written with
          tree
          paths := written.paths ++ [Path.spellBelow target [contextDocumentName]] }
        later

/-- Writes the project document and the documents of the directories below a root. -/
def writeDocuments (tree : FileTree) (root : String) (model : ProjectModel)
    (output : OutputConfig) (project : ProjectDocument) : Written :=
  let path := Path.spellBelow root [projectDocumentName]
  match tree.writeText path project.text with
  | none       => ⟨tree, [], false⟩
  | some after => writeContexts root ⟨after, [path], true⟩ (directoryDocuments model output)

end CodeSurvey
