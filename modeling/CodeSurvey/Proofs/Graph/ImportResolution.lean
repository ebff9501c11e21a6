import CodeSurvey.Graph.Imports
import CodeSurvey.Proofs.Order

/-!
# Imports lead to the longest module

A dotted path leads to the module that the longest of its beginnings stands for; what is left of it
names something in there.

* `FullPath`: the path that is meant, which for a relative import starts at a package around the
  importer.
* `Meets` says in which ways the name of a module meets a beginning of the path, and `Chosen` which
  of the names that do is taken. `FirstNamed` is the file it is taken from.
* `findModule_eq_some_iff` and `findModule_eq_none_iff`: the lookup finds the chosen name, and
  nothing only if no name meets the beginning.
* `resolveParts_eq_some_iff` and `resolveParts_eq_none_iff`: the loop goes from the longest
  beginning down to the first that is found.
* `resolveDotted_longest`: where dotted paths lead, and when they lead nowhere.
-/

namespace CodeSurvey

/-! ### Names of modules -/

section

variable (files : List FileIndex)

/-- The names that modules have. -/
def IsModule (name : String) : Prop :=
  ∃ file ∈ files, file.moduleName = name

/-- The first place of a file with a module name. -/
structure FirstNamed (name : String) (place : Nat) : Prop where
  named : ∃ file, files[place]? = some file ∧ file.moduleName = name
  first : ∀ earlier file, earlier < place → files[earlier]? = some file → file.moduleName ≠ name

end

section

variable {files : List FileIndex} {name : String} {place : Nat}

/-- Of several files with one module name the first is found. -/
theorem moduleNamed_eq_some_iff :
    moduleNamed files name = some place ↔ FirstNamed files name place := by
  rw [moduleNamed, List.findIdx?_eq_some_iff_getElem]
  constructor
  · rintro ⟨inside, named, first⟩
    refine ⟨⟨files[place], List.getElem?_eq_getElem inside, of_decide_eq_true named⟩,
      fun earlier file before there same => first earlier before ?_⟩
    obtain ⟨_, rfl⟩ := List.getElem?_eq_some_iff.1 there
    exact decide_eq_true same
  · rintro ⟨⟨file, there, named⟩, first⟩
    obtain ⟨inside, rfl⟩ := List.getElem?_eq_some_iff.1 there
    refine ⟨inside, decide_eq_true named, fun earlier before same => ?_⟩
    exact first earlier _ before (List.getElem?_eq_getElem (Nat.lt_trans before inside))
      (of_decide_eq_true same)

/-- None is found exactly if no file has the name. -/
theorem moduleNamed_eq_none_iff : moduleNamed files name = none ↔ ¬ IsModule files name := by
  simp [moduleNamed, IsModule, List.findIdx?_eq_none_iff]

theorem FirstNamed.isModule (h : FirstNamed files name place) : IsModule files name := by
  obtain ⟨file, there, named⟩ := h.named
  exact ⟨file, List.mem_of_getElem? there, named⟩

end

/-! ### Names that meet a candidate -/

/-- Names that end in a dot and the candidate. -/
def EndsIn (candidate name : String) : Prop :=
  ∃ front, name = front ++ "." ++ candidate

/-- The name that a candidate has as a module of a package. -/
def siblingName (package : List String) (candidate : String) : String :=
  dotted package ++ "." ++ candidate

/-- The ways in which the name of a module meets a candidate. An import with leading dots is met by
the name itself only. -/
inductive Meets (package : List String) (level : Nat) (candidate : String) : String → Prop
  | exact : Meets package level candidate candidate
  | sibling : level = 0 → package ≠ [] →
      Meets package level candidate (siblingName package candidate)
  | ending {name : String} : level = 0 → EndsIn candidate name → Meets package level candidate name

/-- The name that is taken of those that meet a candidate: its own, or else that of a sibling of the
importer, or else the shortest that ends in it, and of the shortest the least. -/
inductive Chosen (files : List FileIndex) (package : List String) (level : Nat)
    (candidate : String) : String → Prop
  | exact : IsModule files candidate → Chosen files package level candidate candidate
  | sibling : level = 0 → ¬ IsModule files candidate → package ≠ [] →
      IsModule files (siblingName package candidate) →
      Chosen files package level candidate (siblingName package candidate)
  | ending {name : String} : level = 0 → ¬ IsModule files candidate →
      (package ≠ [] → ¬ IsModule files (siblingName package candidate)) →
      IsModule files name → EndsIn candidate name →
      (∀ other, IsModule files other → EndsIn candidate other →
        name.utf8ByteSize < other.utf8ByteSize ∨
          name.utf8ByteSize = other.utf8ByteSize ∧ name ≤ other) →
      Chosen files package level candidate name

section

variable {files : List FileIndex} {package : List String} {level : Nat} {candidate name : String}

/-- A name that is chosen for a candidate meets it. -/
theorem Chosen.meets (h : Chosen files package level candidate name) :
    Meets package level candidate name := by
  cases h with
  | exact _ => exact .exact
  | sibling absolute _ package _ => exact .sibling absolute package
  | ending absolute _ _ _ ends _ => exact .ending absolute ends

/-- A name ends in a candidate if it ends in its characters after a dot. -/
theorem endsWith_dot_iff : Text.endsWith name s!".{candidate}" ↔ EndsIn candidate name := by
  rw [Text.endsWith, List.isSuffixOf_iff_suffix]
  constructor
  · rintro ⟨front, eq⟩
    refine ⟨String.ofList front, String.toList_inj.1 ?_⟩
    rw [← eq]
    simp [toString]
  · rintro ⟨front, rfl⟩
    refine ⟨front.toList, ?_⟩
    simp [toString]

/-- The names that are looked through are the modules that end in the candidate. -/
theorem mem_endings_iff : name ∈ (files.map FileIndex.moduleName).filter
    (fun name => Text.endsWith name s!".{candidate}") ↔
      IsModule files name ∧ EndsIn candidate name := by
  rw [List.mem_filter, List.mem_map, endsWith_dot_iff, IsModule]

/-- **Of the names that end in a candidate the shortest is found**, and of those the first in the
order of texts. -/
theorem moduleEndingIn_eq_some_iff : moduleEndingIn files candidate = some name ↔
    (IsModule files name ∧ EndsIn candidate name) ∧
      ∀ other, IsModule files other → EndsIn candidate other →
        name.utf8ByteSize < other.utf8ByteSize ∨
          name.utf8ByteSize = other.utf8ByteSize ∧ name ≤ other := by
  rw [moduleEndingIn, leastBy_eq_some_iff, mem_endings_iff]
  simp only [mem_endings_iff, and_imp, isLE_byLengthThenText]

/-- None is found exactly if no module's name ends in the candidate. -/
theorem moduleEndingIn_eq_none_iff : moduleEndingIn files candidate = none ↔
    ∀ name, IsModule files name → ¬ EndsIn candidate name := by
  rw [moduleEndingIn, leastBy_eq_none_iff, List.eq_nil_iff_forall_not_mem]
  simp only [mem_endings_iff, not_and]

end

/-! ### Looking a name up -/

theorem dotted_eq_empty_iff {parts : List String} (named : ∀ part ∈ parts, part ≠ "") :
    dotted parts = "" ↔ parts = [] := by
  cases parts with
  | nil => simp [dotted]
  | cons part rest =>
      refine iff_of_false (fun empty => named part List.mem_cons_self ?_) nofun
      cases rest with
      | nil => simpa [dotted] using empty
      | cons next rest =>
          rw [dotted, String.intercalate_cons_cons] at empty
          simp at empty

/-- No part of a package has an empty name. -/
theorem packageParts_ne_empty {files : List FileIndex} {importer : Nat} :
    ∀ part ∈ packageParts files importer, part ≠ "" := by
  intro part mem
  have named : ∀ name, ∀ part ∈ dottedNames name, part ≠ "" := fun name part mem =>
    of_decide_eq_true (List.mem_filter.1 mem).2
  rw [packageParts] at mem
  split at mem
  · cases mem
  · dsimp only at mem
    split at mem
    · split at mem
      · cases mem
      · exact named _ part mem
    · exact named _ part (List.dropLast_subset _ mem)

section

variable {files : List FileIndex} {importer level place : Nat} {candidate : String}

/-- The lookup goes through the three kinds of names. -/
theorem findModule_eq (isAbsolute : Bool) : findModule files candidate importer isAbsolute =
    (moduleNamed files candidate).or
      (if isAbsolute then
        (if packageParts files importer = [] then none
          else moduleNamed files (siblingName (packageParts files importer) candidate)).or
        ((moduleEndingIn files candidate).bind (moduleNamed files))
      else none) := by
  have package : dotted (packageParts files importer) = "" ↔ packageParts files importer = [] :=
    dotted_eq_empty_iff packageParts_ne_empty
  rw [findModule]
  cases moduleNamed files candidate with
  | some place => rfl
  | none =>
      cases isAbsolute with
      | false => rfl
      | true =>
          simp only [package]
          by_cases top : packageParts files importer = []
          · rw [if_pos top, if_pos top]
            rfl
          · have name : s!"{dotted (packageParts files importer)}.{candidate}" =
                siblingName (packageParts files importer) candidate := rfl
            rw [if_neg top, if_neg top, name, Option.none_or]
            cases moduleNamed files (siblingName (packageParts files importer) candidate) <;> rfl

/-- **The lookup finds the first file with the chosen name.** -/
theorem findModule_eq_some_iff :
    findModule files candidate importer (decide (level = 0)) = some place ↔
      ∃ name, Chosen files (packageParts files importer) level candidate name ∧
        FirstNamed files name place := by
  rw [findModule_eq, Option.or_eq_some_iff, moduleNamed_eq_some_iff, moduleNamed_eq_none_iff]
  constructor
  · rintro (named | ⟨other, found⟩)
    · exact ⟨candidate, .exact named.isModule, named⟩
    · split at found
      · rename_i absolute
        replace absolute := of_decide_eq_true absolute
        rcases Option.or_eq_some_iff.1 found with found | ⟨alone, found⟩
        · split at found
          · cases found
          · rename_i package
            have named := moduleNamed_eq_some_iff.1 found
            exact ⟨_, .sibling absolute other package named.isModule, named⟩
        · obtain ⟨name, ending, named⟩ := Option.bind_eq_some_iff.1 found
          obtain ⟨⟨module, ends⟩, least⟩ := moduleEndingIn_eq_some_iff.1 ending
          refine ⟨name, .ending absolute other (fun package => ?_) module ends least,
            moduleNamed_eq_some_iff.1 named⟩
          rwa [if_neg package, moduleNamed_eq_none_iff] at alone
      · cases found
  · rintro ⟨name, chosen, named⟩
    have found := moduleNamed_eq_some_iff.2 named
    cases chosen with
    | exact _ => exact .inl named
    | sibling absolute other package _ =>
        refine .inr ⟨other, ?_⟩
        rw [if_pos (decide_eq_true absolute), if_neg package, found, Option.some_or]
    | ending absolute other alone module ends least =>
        refine .inr ⟨other, ?_⟩
        rw [if_pos (decide_eq_true absolute), moduleEndingIn_eq_some_iff.2 ⟨⟨module, ends⟩, least⟩]
        refine Option.or_eq_some_iff.2 (.inr ⟨?_, found⟩)
        split
        · rfl
        · rename_i package
          exact moduleNamed_eq_none_iff.2 (alone package)

/-- **The lookup finds nothing only if no name meets the candidate.** -/
theorem findModule_eq_none_iff :
    findModule files candidate importer (decide (level = 0)) = none ↔
      ∀ name, IsModule files name →
        ¬ Meets (packageParts files importer) level candidate name := by
  constructor
  · intro nothing name module meets
    rw [findModule_eq, Option.or_eq_none_iff, moduleNamed_eq_none_iff] at nothing
    obtain ⟨other, nothing⟩ := nothing
    cases meets with
    | exact => exact other module
    | sibling absolute package =>
        rw [if_pos (decide_eq_true absolute), if_neg package, Option.or_eq_none_iff,
          moduleNamed_eq_none_iff] at nothing
        exact nothing.1 module
    | ending absolute ends =>
        rw [if_pos (decide_eq_true absolute), Option.or_eq_none_iff] at nothing
        cases ending : moduleEndingIn files candidate with
        | none => exact moduleEndingIn_eq_none_iff.1 ending name module ends
        | some least =>
            rw [ending, Option.bind_some, moduleNamed_eq_none_iff] at nothing
            exact nothing.2 (moduleEndingIn_eq_some_iff.1 ending).1.1
  · intro unmet
    refine Option.eq_none_iff_forall_ne_some.2 fun place found => ?_
    obtain ⟨name, chosen, named⟩ := findModule_eq_some_iff.1 found
    exact unmet name named.isModule chosen.meets

end

/-! ### The longest beginning -/

section

variable {files : List FileIndex} {importer : Nat} {isAbsolute : Bool} {parts : List String}

/-- **Nothing is found exactly if no beginning names a module**; the induction is on the length of
the beginning. -/
theorem resolveParts_eq_none_iff : ∀ {n : Nat},
    resolveParts files importer isAbsolute parts n = none ↔
      ∀ k, 0 < k → k ≤ n → findModule files (dotted (parts.take k)) importer isAbsolute = none
  | 0 => by simp only [resolveParts, true_iff]; omega
  | n + 1 => by
      rw [resolveParts]
      split
      · rename_i module found
        refine iff_of_false nofun fun nothing => ?_
        rw [nothing (n + 1) n.succ_pos (Nat.le_refl _)] at found
        cases found
      · rename_i nothing
        rw [resolveParts_eq_none_iff]
        refine ⟨fun shorter k pos le => ?_, fun all k pos le => all k pos (Nat.le_succ_of_le le)⟩
        rcases Nat.le_succ_iff.1 le with le | rfl
        · exact shorter k pos le
        · exact nothing

/-- **The loop stops at the longest beginning that is found.** -/
theorem resolveParts_eq_some_iff {target : ImportTarget} : ∀ {n : Nat},
    resolveParts files importer isAbsolute parts n = some target ↔
      ∃ k, 0 < k ∧ k ≤ n ∧
        findModule files (dotted (parts.take k)) importer isAbsolute = some target.module ∧
        target.remaining = parts.drop k ∧
        ∀ longer, k < longer → longer ≤ n →
          findModule files (dotted (parts.take longer)) importer isAbsolute = none
  | 0 => by
      refine iff_of_false nofun ?_
      rintro ⟨k, pos, le, -⟩
      omega
  | n + 1 => by
      rw [resolveParts]
      split
      · rename_i module found
        constructor
        · rintro ⟨⟩
          exact ⟨n + 1, n.succ_pos, Nat.le_refl _, found, rfl, fun longer lt le => by omega⟩
        · rintro ⟨k, pos, le, here, rest, none⟩
          rcases Nat.le_succ_iff.1 le with le | rfl
          · rw [none (n + 1) (Nat.lt_succ_of_le le) (Nat.le_refl _)] at found
            cases found
          · rw [found] at here
            obtain ⟨_, _⟩ := target
            cases here
            cases rest
            rfl
      · rename_i nothing
        rw [resolveParts_eq_some_iff]
        constructor
        · rintro ⟨k, pos, le, here, rest, none⟩
          refine ⟨k, pos, Nat.le_succ_of_le le, here, rest, fun longer lt le => ?_⟩
          rcases Nat.le_succ_iff.1 le with le | rfl
          · exact none longer lt le
          · exact nothing
        · rintro ⟨k, pos, le, here, rest, none⟩
          rcases Nat.le_succ_iff.1 le with le | rfl
          · refine ⟨k, pos, le, here, rest, fun longer lt le => ?_⟩
            exact none longer lt (Nat.le_succ_of_le le)
          · rw [nothing] at here
            cases here

end

/-- No module's name meets a beginning of the path with more than `n` parts. -/
def UnmetBeyond (files : List FileIndex) (package : List String) (level : Nat) (full : List String)
    (n : Nat) : Prop :=
  ∀ start later, full = start ++ later → n < start.length →
    ∀ name, IsModule files name → ¬ Meets package level (dotted start) name

section

variable {files : List FileIndex} {importer level n : Nat} {full : List String}

theorem unmetBeyond_iff : UnmetBeyond files (packageParts files importer) level full n ↔
    ∀ k, n < k → k ≤ full.length →
      findModule files (dotted (full.take k)) importer (decide (level = 0)) = none := by
  constructor
  · intro unmet k lt le
    refine findModule_eq_none_iff.2 (unmet _ _ (List.take_append_drop k full).symm ?_)
    rwa [List.length_take_of_le le]
  · rintro nothing start later rfl lt
    have none := nothing start.length lt (by simp)
    rw [List.take_left] at none
    exact findModule_eq_none_iff.1 none

theorem resolveParts_full_eq_none_iff :
    resolveParts files importer (decide (level = 0)) full full.length = none ↔
      UnmetBeyond files (packageParts files importer) level full 0 := by
  rw [resolveParts_eq_none_iff, unmetBeyond_iff]

/-- The longest beginning that a module is chosen for is taken, and the rest of the names is left
over. -/
theorem resolveParts_full_eq_some_iff {module : Nat} {rest : List String} :
    resolveParts files importer (decide (level = 0)) full full.length = some ⟨module, rest⟩ ↔
      ∃ start name, full = start ++ rest ∧ start ≠ [] ∧
        Chosen files (packageParts files importer) level (dotted start) name ∧
        FirstNamed files name module ∧
        UnmetBeyond files (packageParts files importer) level full start.length := by
  rw [resolveParts_eq_some_iff]
  constructor
  · rintro ⟨k, pos, le, found, rfl, none⟩
    obtain ⟨name, chosen, named⟩ := findModule_eq_some_iff.1 found
    have length := List.length_take_of_le le
    refine ⟨full.take k, name, (List.take_append_drop k full).symm, ?_, chosen, named, ?_⟩
    · refine List.ne_nil_of_length_pos ?_
      rwa [length]
    · rw [length]
      exact unmetBeyond_iff.2 none
  · rintro ⟨start, name, rfl, some, chosen, named, unmet⟩
    refine ⟨start.length, List.length_pos_iff.2 some, by simp, ?_, ?_, unmetBeyond_iff.1 unmet⟩
    · rw [List.take_left]
      exact findModule_eq_some_iff.2 ⟨name, chosen, named⟩
    · rw [List.drop_left]

end

/-! ### Paths with leading dots -/

/-- The path that is meant in a package: as it stands without leading dots, and else below the
package after one part is left off its end for every dot but the first. -/
inductive FullPath (package : List String) : Nat → List String → List String → Prop
  | absolute (parts : List String) : FullPath package 0 parts parts
  | relative {base above : List String} (parts : List String) :
      package = base ++ above → FullPath package (above.length + 1) parts (base ++ parts)

section

variable {files : List FileIndex} {importer level : Nat} {package parts full : List String}

/-- Leading dots lead out of no more packages than there are. -/
theorem FullPath.level_le (h : FullPath package level parts full) : level ≤ package.length + 1 := by
  cases h with
  | absolute => exact Nat.zero_le _
  | relative _ eq =>
      rw [eq, List.length_append]
      omega

/-- The full path of an import is the only one. -/
theorem FullPath.unique {full' : List String} (h : FullPath package level parts full)
    (h' : FullPath package level parts full') : full = full' := by
  cases h with
  | absolute => cases h'; rfl
  | relative _ eq =>
      generalize above : _ + 1 = level at h'
      cases h' with
      | absolute => cases above
      | relative _ eq' =>
          rw [eq] at eq'
          rw [(List.append_inj' eq' (Nat.succ.inj above)).1]

/-- There is one as long as the dots do not lead out of the project. -/
theorem exists_fullPath (inside : level ≤ package.length + 1) (parts : List String) :
    ∃ full, FullPath package level parts full := by
  cases level with
  | zero => exact ⟨parts, .absolute parts⟩
  | succ above =>
      have split := List.take_append_drop (package.length - above) package
      have length : (package.drop (package.length - above)).length = above := by
        rw [List.length_drop]
        omega
      have full := FullPath.relative parts split.symm
      rw [length] at full
      exact ⟨_, full⟩

/-- An import is resolved by its full path. -/
theorem resolveDotted_eq (h : FullPath (packageParts files importer) level parts full) :
    resolveDotted files importer level parts =
      resolveParts files importer (decide (level = 0)) full full.length := by
  cases h with
  | absolute => rfl
  | @relative base above _ eq =>
      have around : relativeBase files importer (above.length + 1) = some base := by
        simp [relativeBase, eq]
      rw [resolveDotted, if_neg (Nat.succ_ne_zero _), around]
      rfl

/-- With too many dots it is not resolved at all. -/
theorem resolveDotted_of_lt (above : (packageParts files importer).length + 1 < level) :
    resolveDotted files importer level parts = none := by
  have none : relativeBase files importer level = none := by
    rw [relativeBase]
    exact if_neg (by omega)
  rw [resolveDotted, if_neg (by omega), none]

end

/-- **Imports lead to the longest module.** A dotted path leads to the first file with the name that
is chosen for one of its beginnings, where no name meets a longer one; what is left over follows
that beginning. It leads nowhere exactly if its dots climb above the importer's package or no name
meets any of its beginnings. With leading dots, the name is the beginning itself. -/
theorem resolveDotted_longest (files : List FileIndex) (importer level : Nat)
    (parts : List String) :
    (∀ module rest, resolveDotted files importer level parts = some ⟨module, rest⟩ ↔
      ∃ full start name, FullPath (packageParts files importer) level parts full ∧
        full = start ++ rest ∧ start ≠ [] ∧
        Chosen files (packageParts files importer) level (dotted start) name ∧
        FirstNamed files name module ∧
        UnmetBeyond files (packageParts files importer) level full start.length) ∧
    (resolveDotted files importer level parts = none ↔
      (packageParts files importer).length + 1 < level ∨
      ∃ full, FullPath (packageParts files importer) level parts full ∧
        UnmetBeyond files (packageParts files importer) level full 0) ∧
    (level ≠ 0 → ∀ module rest, resolveDotted files importer level parts = some ⟨module, rest⟩ →
      ∃ start, FullPath (packageParts files importer) level parts (start ++ rest) ∧ start ≠ [] ∧
        FirstNamed files (dotted start) module) := by
  rcases Nat.lt_or_ge ((packageParts files importer).length + 1) level with above | inside
  · rw [resolveDotted_of_lt above]
    refine ⟨fun module rest => iff_of_false nofun ?_, iff_of_true rfl (.inl above), nofun⟩
    rintro ⟨full, start, name, meant, -⟩
    exact Nat.not_lt.2 meant.level_le above
  · obtain ⟨full, meant⟩ := exists_fullPath inside parts
    rw [resolveDotted_eq meant]
    refine ⟨fun module rest => ?_, ?_, fun relative module rest found => ?_⟩
    · rw [resolveParts_full_eq_some_iff]
      constructor
      · rintro ⟨start, name, eq, chosen⟩
        exact ⟨full, start, name, meant, eq, chosen⟩
      · rintro ⟨same, start, name, meant', eq, chosen⟩
        obtain rfl := meant.unique meant'
        exact ⟨start, name, eq, chosen⟩
    · rw [resolveParts_full_eq_none_iff]
      constructor
      · exact fun unmet => .inr ⟨full, meant, unmet⟩
      · rintro (above | ⟨same, meant', unmet⟩)
        · omega
        · obtain rfl := meant.unique meant'
          exact unmet
    · obtain ⟨start, name, eq, some, chosen, named, -⟩ := resolveParts_full_eq_some_iff.1 found
      cases chosen with
      | exact _ => exact ⟨start, eq ▸ meant, some, named⟩
      | sibling absolute _ _ _ => exact absurd absolute relative
      | ending absolute _ _ _ _ _ => exact absurd absolute relative

end CodeSurvey
