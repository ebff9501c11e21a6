import CodeSurvey.FileTree

/-!
# Spelled paths below a directory

The components of a path that is spelled as a directory followed by names.

* `parts_below`: they are those of the directory, then those of what follows.
* `parts_spellBelow`: names that stand for themselves follow as they are.
* `spellBelow_intercalate`: names joined by slashes follow like the names one by one.
-/

namespace CodeSurvey

/-- A name that stands for itself in a path. -/
def IsName (name : String) : Prop :=
  name ≠ "" ∧ name ≠ "." ∧ name ≠ ".." ∧ '/' ∉ name.toList

instance (name : String) : Decidable (IsName name) :=
  inferInstanceAs (Decidable (_ ∧ _))

namespace Path

/-! ### Slashes -/

/-- The components of a text that does not stand first in a path. -/
def laterParts (text : String) : List Component :=
  ((text.toList.splitOn '/').map String.ofList).filterMap (pieceComponent false false)

/-- A name is spelled as a single component. -/
theorem laterParts_name {name : String} (isName : IsName name) :
    laterParts name = [.name name] := by
  obtain ⟨nonempty, notHere, notUp, plain⟩ := isName
  have whole : name.toList.splitOn '/' = [name.toList] :=
    List.splitOn_eq_singleton plain
  simp [laterParts, whole, pieceComponent, nonempty, notHere, notUp]

/-- A path is read piece by piece between its slashes. -/
theorem parts_ofText {text : String} {first : List Char} {rest : List (List Char)}
    (h : text.toList.splitOn '/' = first :: rest) :
    (ofText text).parts = (pieceComponent true (!rest.isEmpty) (.ofList first)).toList ++
      (rest.map String.ofList).filterMap (pieceComponent false false) := by
  simp only [ofText, pieces, h, List.map_cons, List.isEmpty_map, List.filterMap_cons,
    List.filterMap_map, Function.comp_def]
  cases pieceComponent true (!rest.isEmpty) (.ofList first) <;> rfl

/-- Joining two spellings with a slash joins their pieces. -/
theorem splitOn_slash (directory text : String) :
    (directory ++ "/" ++ text).toList.splitOn '/' =
      directory.toList.splitOn '/' ++ text.toList.splitOn '/' := by
  rw [String.toList_append, String.toList_append, List.append_assoc]
  exact List.splitOn_append_cons_self ..

/-- What follows a slash comes after what stands before it. -/
theorem parts_slash (directory text : String) :
    (ofText (directory ++ "/" ++ text)).parts =
      (ofText (directory ++ "/")).parts ++ laterParts text := by
  obtain ⟨first, rest, cut⟩ := List.exists_cons_of_ne_nil (List.splitOn_ne_nil '/' directory.toList)
  have whole := splitOn_slash directory text
  have front := splitOn_slash directory ""
  rw [cut, List.cons_append] at whole front
  rw [String.append_empty] at front
  rw [parts_ofText whole, parts_ofText front]
  simp [laterParts, pieceComponent]

/-- A slash at the end is no component. -/
theorem parts_slash_end {directory : String} (nonempty : directory ≠ "") :
    (ofText (directory ++ "/")).parts = (ofText directory).parts := by
  obtain ⟨first, rest, cut⟩ := List.exists_cons_of_ne_nil (List.splitOn_ne_nil '/' directory.toList)
  have front := splitOn_slash directory ""
  rw [cut, List.cons_append, String.append_empty] at front
  rw [parts_ofText cut, parts_ofText front, List.map_append, List.filterMap_append]
  cases rest with
  | nil =>
      -- without another slash the first piece is the directory, which is not empty
      have same : String.ofList first = directory := by
        have joined : ['/'].intercalate (directory.toList.splitOn '/') = directory.toList :=
          List.intercalate_splitOn '/'
        rw [cut] at joined
        rw [← String.ofList_toList (s := directory), ← joined]
        simp
      simp [same, pieceComponent, nonempty]
  | cons => simp [pieceComponent]

/-! ### Below a directory -/

theorem spellBelow_one (directory text : String) :
    spellBelow directory [text] =
      if directory = "" ∨ directory.toList.getLast? = some '/' then directory ++ text
      else directory ++ "/" ++ text := rfl

/-- **What is spelled below a directory comes after the directory.** -/
theorem parts_below {directory : String} (nonempty : directory ≠ "") (text : String) :
    (ofText (spellBelow directory [text])).parts = (ofText directory).parts ++ laterParts text := by
  rw [spellBelow_one]
  by_cases ends : directory.toList.getLast? = some '/'
  · rw [if_pos (.inr ends)]
    obtain ⟨front, eq⟩ := List.getLast?_eq_some_iff.1 ends
    have spelled : directory = String.ofList front ++ "/" := by
      rw [← String.ofList_toList (s := directory), eq, String.ofList_append]
    rw [spelled, parts_slash]
  · rw [if_neg (by simp [nonempty, ends]), parts_slash, parts_slash_end nonempty]

theorem spellBelow_empty (text : String) : spellBelow "" [text] = text := by
  rw [spellBelow_one, if_pos (.inl rfl), String.empty_append]

theorem parts_name {name : String} (isName : IsName name) : (ofText name).parts = [.name name] := by
  obtain ⟨nonempty, notHere, notUp, plain⟩ := isName
  rw [parts_ofText (List.splitOn_eq_singleton plain)]
  simp [pieceComponent, nonempty, notHere, notUp]

/-- **A name below a directory is the last component** of the path that is spelled so. -/
theorem parts_below_name (directory : String) {name : String} (isName : IsName name) :
    (ofText (spellBelow directory [name])).parts = (ofText directory).parts ++ [.name name] := by
  by_cases nonempty : directory = ""
  · subst nonempty
    rw [spellBelow_empty, parts_name isName]
    rfl
  · rw [parts_below nonempty, laterParts_name isName]

/-- **Names that stand for themselves follow a directory as they are.** -/
theorem parts_spellBelow : ∀ (names : List String) (directory : String),
    (∀ name ∈ names, IsName name) →
      (ofText (spellBelow directory names)).parts = (ofText directory).parts ++ names.map .name
  | [], _, _ => (List.append_nil _).symm
  | name :: names, directory, h => by
      have first := parts_below_name directory (h name List.mem_cons_self)
      have rest := parts_spellBelow names (spellBelow directory [name])
        fun n hn => h n (.tail _ hn)
      rw [first, List.append_assoc] at rest
      exact rest

theorem laterParts_here : laterParts "." = [] := by decide

/-! ### Ends -/

/-- Such a path ends as the name does. -/
theorem getLast?_spellBelow (directory : String) {name : String} (nonempty : name ≠ "") :
    (spellBelow directory [name]).toList.getLast? = name.toList.getLast? := by
  have last : ∀ front : String, (front ++ name).toList.getLast? = name.toList.getLast? := by
    intro front
    have some : name.toList.getLast?.isSome := by
      rw [List.getLast?_isSome]
      exact fun h => nonempty (String.toList_eq_nil_iff.1 h)
    rw [String.toList_append, List.getLast?_append, Option.or_of_isSome some]
  rw [spellBelow_one]
  split <;> exact last _

/-- So it does not ask for a directory. -/
theorem not_demandsDirectory (directory : String) {name : String} {c : Char}
    (last : name.toList.getLast? = some c) (plain : c ≠ '/' ∧ c ≠ '.') :
    FileTree.demandsDirectory (spellBelow directory [name]) = false := by
  have nonempty : name ≠ "" := by
    rintro rfl
    cases last
  rw [← getLast?_spellBelow directory nonempty] at last
  obtain ⟨front, eq⟩ := List.getLast?_eq_some_iff.1 last
  simp [FileTree.demandsDirectory, List.isSuffixOf, List.isPrefixOf, eq, plain.1.symm,
    plain.2.symm]

/-- **Names joined by slashes follow like the names one by one.** -/
theorem spellBelow_intercalate : ∀ (names : List String) (directory : String), names ≠ [] →
    (∀ name ∈ names, IsName name) →
      spellBelow directory [String.intercalate "/" names] = spellBelow directory names
  | [name], _, _, _ => by rw [String.intercalate_singleton]
  | name :: next :: names, directory, _, h => by
      have rest := spellBelow_intercalate (next :: names) (spellBelow directory [name])
        (by simp) fun n hn => h n (.tail _ hn)
      have isName := h name List.mem_cons_self
      have ends : (spellBelow directory [name]).toList.getLast? ≠ some '/' := by
        rw [getLast?_spellBelow directory isName.1]
        exact fun last => isName.2.2.2 (List.mem_of_getLast? last)
      have filled : spellBelow directory [name] ≠ "" := by
        rw [spellBelow_one]
        split <;> simp [isName.1]
      rw [spellBelow_one, if_neg (by simp [ends, filled])] at rest
      rw [String.intercalate_cons_cons]
      refine Eq.trans ?_ rest
      rw [spellBelow_one, spellBelow_one]
      split <;> simp [String.append_assoc]

/-- The names of a path are spelled with slashes between them. -/
theorem text_ofNames (names : List String) :
    (ofNames names).text = String.intercalate "/" names := by
  have texts : (names.map Component.name).map Component.text = names := by
    rw [List.map_map]
    exact List.map_id names
  rw [text, ofNames]
  split
  · rename_i root
    cases names <;> simp at root
  · rw [texts]

/-- **Names joined by slashes spell the path of the names.** -/
theorem ofText_intercalate {names : List String} (nonempty : names ≠ [])
    (valid : ∀ name ∈ names, IsName name) :
    ofText (String.intercalate "/" names) = ofNames names := by
  have parts := parts_spellBelow names "" valid
  rw [← spellBelow_intercalate names "" nonempty valid, spellBelow_empty] at parts
  exact congrArg Path.mk parts

/-- **A path of names reads back from its spelling.** -/
theorem ofText_text {names : List String} (nonempty : names ≠ [])
    (valid : ∀ name ∈ names, IsName name) : ofText (ofNames names).text = ofNames names := by
  rw [text_ofNames, ofText_intercalate nonempty valid]

end Path

end CodeSurvey
