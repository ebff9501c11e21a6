import CodeSurvey.Conflict
import CodeSurvey.Proofs.Entries
import CodeSurvey.Proofs.Order
import Mathlib.Algebra.BigOperators.Group.List.Basic
import Mathlib.Data.List.Forall2
import Mathlib.Data.List.Perm.Subperm
import Mathlib.Data.String.Basic

/-!
# How conflicts are grouped

Candidates are summed up by name, and names are grouped by their normal form.

* `ConflictMember.Sums` says what a member has of the candidates of its name, and
  `Conflict.Groups` what a conflict has of the candidates whose names have its key as their normal
  form. Neither depends on the order of the candidates.
* `detectConflicts_eq`: the members first, then one conflict for each key of two or more of them.
* `isSome_detectConflicts`: there is a result exactly if no count leaves its range.
* `groups_of_detectConflicts`: the result has a conflict for exactly the keys that two names have.
* `Conflict.Groups.same`: a conflict is known by its key and the candidates.
* `detectConflicts_groups`: all of this, and so the order of the candidates does not matter.
-/

namespace CodeSurvey

open Std (TransCmp OrientedCmp LawfulEqCmp)

/-! ### Candidates of a name -/

section

variable (candidates : List Candidate) (name : String)

/-- How many files the candidates of a name hold. -/
def filesNamed : Nat :=
  ((candidates.filter fun c => c.name = name).map Candidate.fileCount).sum

/-- How many references arrive at the candidates of a name. -/
def inboundNamed : Nat :=
  ((candidates.filter fun c => c.name = name).map Candidate.inbound).sum

/-- The two counts of a name together. -/
def weightNamed : Nat :=
  filesNamed candidates name + inboundNamed candidates name

end

/-- What a member has of the candidates: the sums of their counts, whether any of them has content,
and their paths, each once and in order. Spellings of one path count as one. -/
structure ConflictMember.Sums (candidates : List Candidate) (member : ConflictMember) : Prop where
  fileCount : member.fileCount = filesNamed candidates member.name
  inbound   : member.inbound = inboundNamed candidates member.name
  nonEmpty  : member.nonEmpty ↔ ∃ c ∈ candidates, c.name = member.name ∧ c.nonEmpty
  sorted    : (member.paths.map Path.ofText).Pairwise fun a b => a.order b = .lt
  paths     : ∀ path, path ∈ member.paths.map Path.ofText ↔
    ∃ c ∈ candidates, c.name = member.name ∧ Path.ofText c.path = path
  spelled   : ∀ path ∈ member.paths, ∃ c ∈ candidates, c.name = member.name ∧ c.path = path

theorem orderSpelled_eq (a b : String) :
    orderSpelled a b = (Path.ofText a).order (Path.ofText b) := rfl

instance : TransCmp orderSpelled where
  eq_swap {a b} := by
    rw [orderSpelled_eq, orderSpelled_eq]
    exact OrientedCmp.eq_swap
  isLE_trans {a b c} := by
    rw [orderSpelled_eq, orderSpelled_eq, orderSpelled_eq]
    exact TransCmp.isLE_trans

section

variable {candidates : List Candidate} {name : String} {member : ConflictMember}

/-- A count is given back if it is in range. -/
theorem checkedCount_eq_some_iff {n m : Nat} :
    checkedCount n = some m ↔ n ≤ greatestCount ∧ n = m := by
  rw [checkedCount]
  split <;> simp_all

/-- The candidates of a name make a member if their two sums are in range. -/
theorem memberOf_eq_some_iff : memberOf candidates name = some member ↔
    filesNamed candidates name ≤ greatestCount ∧ inboundNamed candidates name ≤ greatestCount ∧
      member =
        { name
          paths     := sortedSet orderSpelled
            ((candidates.filter fun c => c.name = name).map Candidate.path)
          fileCount := filesNamed candidates name
          inbound   := inboundNamed candidates name
          nonEmpty  := (candidates.filter fun c => c.name = name).any Candidate.nonEmpty } := by
  simp only [memberOf, filesNamed, inboundNamed, bind, Option.bind_eq_some_iff,
    checkedCount_eq_some_iff, pure, Option.some.injEq]
  constructor
  · rintro ⟨_, ⟨files, rfl⟩, _, ⟨inbound, rfl⟩, rfl⟩
    exact ⟨files, inbound, rfl⟩
  · rintro ⟨files, inbound, rfl⟩
    exact ⟨_, ⟨files, rfl⟩, _, ⟨inbound, rfl⟩, rfl⟩

theorem name_of_memberOf (h : memberOf candidates name = some member) : member.name = name := by
  obtain ⟨-, -, rfl⟩ := memberOf_eq_some_iff.1 h
  rfl

/-- **A member sums its candidates up.** -/
theorem sums_of_memberOf (h : memberOf candidates name = some member) :
    member.Sums candidates := by
  obtain ⟨-, -, rfl⟩ := memberOf_eq_some_iff.1 h
  have own : ∀ {path}, path ∈ (candidates.filter fun c => c.name = name).map Candidate.path ↔
      ∃ c ∈ candidates, c.name = name ∧ c.path = path := by
    intro path
    simp only [List.mem_map, List.mem_filter, decide_eq_true_eq, and_assoc]
  refine ⟨rfl, rfl, ?_, ?_, fun path => ?_, fun path mem => own.1 (mem_of_mem_sortedSet mem)⟩
  · simp only [List.any_eq_true, List.mem_filter, decide_eq_true_eq, and_assoc]
  · have sorted : (sortedSet orderSpelled ((candidates.filter fun c => c.name = name).map
        Candidate.path)).Pairwise fun a b => orderSpelled a b = .lt := pairwise_sortedSet _
    exact List.pairwise_map.2 sorted
  · constructor
    · intro mem
      obtain ⟨spelled, there, rfl⟩ := List.mem_map.1 mem
      obtain ⟨c, listed, named, rfl⟩ := own.1 (mem_of_mem_sortedSet there)
      exact ⟨c, listed, named, rfl⟩
    · rintro ⟨c, listed, named, rfl⟩
      obtain ⟨spelled, there, same⟩ : ∃ y ∈ sortedSet orderSpelled _, orderSpelled c.path y = .eq :=
        exists_mem_sortedSet (own.2 ⟨c, listed, named, rfl⟩)
      rw [orderSpelled_eq] at same
      exact List.mem_map.2 ⟨spelled, there, (LawfulEqCmp.eq_of_compare same).symm⟩

end

/-! ### Members and keys -/

/-- The members that candidates make, one for each name, unless a count leaves its range. -/
def membersIn (candidates : List Candidate) : Option (List ConflictMember) :=
  (sortedSet compare (candidates.map Candidate.name)).mapM (memberOf candidates)

/-- The members with a normal form. -/
def membersUnder (members : List ConflictMember) (key : String) : List ConflictMember :=
  members.filter fun m => normalizeName m.name = key

/-- The normal forms that two or more members have, in order. -/
def conflictKeys (members : List ConflictMember) : List String :=
  (sortedSet compare ((members.map fun m => normalizeName m.name).filter (· ≠ ""))).filter
    fun key => decide (2 ≤ (membersUnder members key).length)

/-- The members that have a normal form, each with it. -/
def keyedMembers (members : List ConflictMember) : List (String × ConflictMember) :=
  members.filterMap fun m =>
    let key := normalizeName m.name
    if key = "" then none else some (key, m)

/-- The keys of members are their normal forms, without the empty one. -/
theorem map_fst_keyedMembers (members : List ConflictMember) : (keyedMembers members).map Prod.fst =
    (members.map fun m => normalizeName m.name).filter (· ≠ "") := by
  induction members with
  | nil => rfl
  | cons m rest ih =>
      rw [keyedMembers] at ih ⊢
      by_cases empty : normalizeName m.name = "" <;> simpa [empty] using ih

/-- The members with a key are those with its normal form. -/
theorem map_snd_keyedMembers {key : String} (filled : key ≠ "") (members : List ConflictMember) :
    ((keyedMembers members).filter fun p => p.1 = key).map Prod.snd = membersUnder members key := by
  induction members with
  | nil => rfl
  | cons m rest ih =>
      rw [keyedMembers, membersUnder] at ih ⊢
      by_cases empty : normalizeName m.name = ""
      · simpa [empty, Ne.symm filled] using ih
      · by_cases same : normalizeName m.name = key
        · simpa [empty, same, filled] using ih
        · simpa [empty, same] using ih

/-- **Conflicts are found in two stages**: the members, then a conflict for each of their keys. -/
theorem detectConflicts_eq (candidates : List Candidate) :
    detectConflicts candidates = (membersIn candidates).bind fun members =>
      (conflictKeys members).mapM fun key => buildConflict key (membersUnder members key) := by
  refine Option.bind_congr fun members _ => ?_
  have groups : ((sortedSet compare ((keyedMembers members).map Prod.fst)).map fun key =>
      (key, ((keyedMembers members).filter fun p => p.1 = key).map Prod.snd)) =
      (sortedSet compare ((members.map fun m => normalizeName m.name).filter (· ≠ ""))).map
        fun key => (key, membersUnder members key) := by
    rw [map_fst_keyedMembers]
    refine List.map_congr_left fun key mem => ?_
    have filled : key ≠ "" := by simpa using (List.mem_filter.1 (mem_of_mem_sortedSet mem)).2
    rw [map_snd_keyedMembers filled]
  change ((((sortedSet compare ((keyedMembers members).map Prod.fst)).map fun key =>
      (key, ((keyedMembers members).filter fun p => p.1 = key).map Prod.snd)).filter
        fun g => decide (2 ≤ g.2.length)).mapM fun g => buildConflict g.1 g.2) = _
  rw [groups, List.filter_map, List.mapM_map]
  rfl

section

variable {members : List ConflictMember} {key : String}

theorem mem_membersUnder {m : ConflictMember} :
    m ∈ membersUnder members key ↔ m ∈ members ∧ normalizeName m.name = key := by
  simp [membersUnder]

/-- The keys of conflicts are those that two members have. -/
theorem mem_conflictKeys :
    key ∈ conflictKeys members ↔ key ≠ "" ∧ 2 ≤ (membersUnder members key).length := by
  simp only [conflictKeys, List.mem_filter, mem_sortedSet, List.mem_map, decide_eq_true_eq]
  constructor
  · rintro ⟨⟨_, filled⟩, two⟩
    exact ⟨filled, two⟩
  · rintro ⟨filled, two⟩
    obtain ⟨m, mem⟩ := List.exists_mem_of_length_pos
      (by omega : 0 < (membersUnder members key).length)
    obtain ⟨listed, form⟩ := mem_membersUnder.1 mem
    exact ⟨⟨⟨m, listed, form⟩, filled⟩, two⟩

theorem pairwise_conflictKeys (members : List ConflictMember) :
    (conflictKeys members).Pairwise (· < ·) :=
  ((pairwise_sortedSet _).sublist List.filter_sublist).imp compare_lt_iff_lt.1

end

/-! ### The members of candidates -/

section

variable {candidates : List Candidate} {members : List ConflictMember} {key : String}

/-- **There is one member for each name of a candidate**, in order. -/
theorem names_membersIn (h : membersIn candidates = some members) :
    members.map ConflictMember.name = sortedSet compare (candidates.map Candidate.name) :=
  map_of_mapM name_of_memberOf h

/-- Each has the sums of its name. -/
theorem sums_membersIn (h : membersIn candidates = some members) :
    ∀ m ∈ members, m.Sums candidates := by
  intro m mem
  obtain ⟨name, -, eq⟩ := (mem_mapM_iff h).1 mem
  exact sums_of_memberOf eq

theorem pairwise_names (h : membersIn candidates = some members) :
    (members.map ConflictMember.name).Pairwise (· < ·) := by
  rw [names_membersIn h]
  exact (pairwise_sortedSet _).imp compare_lt_iff_lt.1

theorem pairwise_membersUnder (h : membersIn candidates = some members) (key : String) :
    ((membersUnder members key).map ConflictMember.name).Pairwise (· < ·) :=
  (pairwise_names h).sublist (List.filter_sublist.map _)

/-- The names under a key are those of candidates with that normal form. -/
theorem mem_names_membersUnder (h : membersIn candidates = some members) {name : String} :
    name ∈ (membersUnder members key).map ConflictMember.name ↔
      normalizeName name = key ∧ ∃ c ∈ candidates, c.name = name := by
  have listed : name ∈ members.map ConflictMember.name ↔ ∃ c ∈ candidates, c.name = name := by
    rw [names_membersIn h, mem_sortedSet, List.mem_map]
  rw [← listed]
  simp only [List.mem_map, mem_membersUnder]
  constructor
  · rintro ⟨m, ⟨mem, form⟩, rfl⟩
    exact ⟨form, m, mem, rfl⟩
  · rintro ⟨form, m, mem, rfl⟩
    exact ⟨m, ⟨mem, form⟩, rfl⟩

/-- Two members are under a key exactly if two names have it as their normal form. -/
theorem two_le_membersUnder_iff (h : membersIn candidates = some members) :
    2 ≤ (membersUnder members key).length ↔ ∃ a ∈ candidates, ∃ b ∈ candidates,
      a.name ≠ b.name ∧ normalizeName a.name = key ∧ normalizeName b.name = key := by
  have names : ∀ name, name ∈ (membersUnder members key).map ConflictMember.name ↔
      normalizeName name = key ∧ ∃ c ∈ candidates, c.name = name :=
    fun name => mem_names_membersUnder h
  have sorted := pairwise_membersUnder h key
  rw [← List.length_map ConflictMember.name]
  generalize (membersUnder members key).map ConflictMember.name = found at names sorted
  constructor
  · intro two
    match found, two with
    | a :: b :: _, _ =>
      obtain ⟨formA, c, listed, rfl⟩ := (names a).1 List.mem_cons_self
      obtain ⟨formB, d, listed', rfl⟩ := (names b).1 (.tail _ List.mem_cons_self)
      have lt : c.name < d.name := (List.pairwise_cons.1 sorted).1 _ List.mem_cons_self
      exact ⟨c, listed, d, listed', ne_of_lt lt, formA, formB⟩
  · rintro ⟨a, listed, b, listed', ne, formA, formB⟩
    have first := (names a.name).2 ⟨formA, a, listed, rfl⟩
    have second := (names b.name).2 ⟨formB, b, listed', rfl⟩
    match found, first, second with
    | [_], first, second =>
      exact absurd ((List.mem_singleton.1 first).trans (List.mem_singleton.1 second).symm) ne
    | _ :: _ :: _, _, _ => simp

end

/-! ### The member to keep -/

/-- Whether a member is a better name to keep than another: it has more files and references, or as
many and a shorter name, or one as short that comes first. -/
def ConflictMember.Better (a b : ConflictMember) : Prop :=
  b.fileCount + b.inbound < a.fileCount + a.inbound ∨
    (b.fileCount + b.inbound = a.fileCount + a.inbound ∧
      (a.name.utf8ByteSize < b.name.utf8ByteSize ∨
        (a.name.utf8ByteSize = b.name.utf8ByteSize ∧ a.name < b.name)))

/-- What it means to prefer a member. -/
theorem preferMember_eq_lt_iff {a b : ConflictMember} : preferMember a b = .lt ↔ a.Better b := by
  simp only [preferMember, byLengthThenText, Ordering.then_eq_lt, Nat.compare_eq_eq,
    compare_lt_iff_lt, ConflictMember.Better]

theorem name_of_preferMember {a b : ConflictMember} (h : preferMember a b = .eq) :
    a.name = b.name :=
  LawfulEqCmp.eq_of_compare (Ordering.then_eq_eq.1 h).2

instance : TransCmp preferMember := by
  have heavier : TransCmp fun a b : ConflictMember =>
      compare (b.fileCount + b.inbound) (a.fileCount + a.inbound) :=
    inferInstanceAs (TransCmp fun a b : ConflictMember =>
      (compareOn (fun m => m.fileCount + m.inbound) b a))
  have shorter : TransCmp fun a b : ConflictMember => byLengthThenText a.name b.name :=
    { eq_swap := OrientedCmp.eq_swap, isLE_trans := TransCmp.isLE_trans }
  exact inferInstanceAs (TransCmp (compareLex _ _))

section

variable {members : List ConflictMember}

/-- The members can be compared exactly if there are more than two of them, which are not compared,
or the two counts of each fit together. -/
theorem isSome_suggestPrimary : (suggestPrimary members).isSome ↔
    3 ≤ members.length ∨ ∀ m ∈ members, m.fileCount + m.inbound ≤ greatestCount := by
  have fits : ∀ n, (checkedCount n).isSome ↔ n ≤ greatestCount := by
    intro n
    rw [checkedCount]
    split <;> simp_all
  rw [suggestPrimary]
  split
  · simp_all
  · rename_i few
    simp [isSome_mapM, fits, few]

/-- There is none on purpose exactly if there are more than two members. -/
theorem suggestPrimary_none {primary : Option String} (h : suggestPrimary members = some primary)
    (filled : members ≠ []) : primary = none ↔ 3 ≤ members.length := by
  rw [suggestPrimary] at h
  split at h
  · rename_i many
    cases h
    simp [many]
  · rename_i few
    obtain ⟨_, -, rfl⟩ := Option.map_eq_some_iff.1 h
    rw [Option.map_eq_none_iff, leastBy_eq_none_iff]
    exact ⟨fun empty => absurd empty filled, fun many => absurd many few⟩

/-- **The member to keep is better than all others.** -/
theorem suggestPrimary_better {name : String} (h : suggestPrimary members = some (some name)) :
    ∃ m ∈ members, m.name = name ∧ ∀ other ∈ members, other.name ≠ name → m.Better other := by
  rw [suggestPrimary] at h
  split at h
  · cases h
  · obtain ⟨_, -, h⟩ := Option.map_eq_some_iff.1 h
    obtain ⟨m, least, rfl⟩ := Option.map_eq_some_iff.1 h
    refine ⟨m, mem_of_leastBy least, rfl, fun other mem ne => ?_⟩
    have le := leastBy_isLE least other mem
    rw [← preferMember_eq_lt_iff]
    cases eq : preferMember m other with
    | lt => rfl
    | eq => exact absurd (name_of_preferMember eq).symm ne
    | gt => rw [eq] at le; cases le

end

/-! ### Conflicts -/

/-- What is said about a conflict, given how its members are listed. -/
def issueText (key : String) (members : List String) (primary : Option String) : String :=
  let listed := String.intercalate " vs " members
  match primary with
  | some primary => s!"similar names {listed}; consolidate into '{primary}'"
  | none         => s!"{members.length} names normalize to '{key}': {listed}"

/-- What a conflict has of the candidates: a member for each of their names that its key is the
normal form of, in order. With two members the better one is the one to keep. -/
structure Conflict.Groups (candidates : List Candidate) (conflict : Conflict) : Prop where
  ordered   : conflict.memberNames.Pairwise (· < ·)
  names     : ∀ name, name ∈ conflict.memberNames ↔
    normalizeName name = conflict.key ∧ ∃ c ∈ candidates, c.name = name
  sums      : ∀ m ∈ conflict.members, m.Sums candidates
  noPrimary : conflict.suggestedPrimary = none ↔ 3 ≤ conflict.members.length
  primary   : ∀ name, conflict.suggestedPrimary = some name → ∃ m ∈ conflict.members,
    m.name = name ∧ ∀ other ∈ conflict.members, other.name ≠ name → m.Better other
  critical  : conflict.severity = .critical ↔
    ∀ m ∈ conflict.members, m.nonEmpty ∧ 0 < m.inbound
  ambiguous : conflict.isAmbiguous ↔ 3 ≤ conflict.members.length
  issue     : conflict.issue =
    issueText conflict.key (conflict.members.map listMember) conflict.suggestedPrimary

section

variable {candidates : List Candidate} {members : List ConflictMember} {conflict : Conflict}
  {conflicts : List Conflict} {key : String}

theorem key_of_buildConflict (h : buildConflict key members = some conflict) :
    conflict.key = key := by
  obtain ⟨primary, -, rfl⟩ := Option.map_eq_some_iff.1 h
  rfl

/-- A conflict groups the candidates of its key. -/
theorem groups_of_buildConflict (h : membersIn candidates = some members)
    (two : 2 ≤ (membersUnder members key).length)
    (built : buildConflict key (membersUnder members key) = some conflict) :
    conflict.Groups candidates := by
  obtain ⟨primary, suggested, rfl⟩ := Option.map_eq_some_iff.1 built
  have sorted := pairwise_membersUnder h key
  have filled : membersUnder members key ≠ [] := by
    rintro empty
    rw [empty] at two
    cases two
  refine ⟨sorted, fun name => mem_names_membersUnder h, fun m mem => ?_,
    suggestPrimary_none suggested filled, fun name eq => ?_, ?_, decide_eq_true_iff, ?_⟩
  · exact sums_membersIn h m (mem_membersUnder.1 mem).1
  · subst eq
    exact suggestPrimary_better suggested
  · dsimp only
    split
    · rename_i all
      simpa using all
    · rename_i some
      simpa using some
  · cases primary with
    | none => rw [issueText.eq_def, List.length_map]
    | some => rfl

/-- There are conflicts if all members fit and all conflicts among them. -/
theorem detectConflicts_eq_some_iff : detectConflicts candidates = some conflicts ↔
    ∃ members, membersIn candidates = some members ∧ (conflictKeys members).mapM (fun key =>
      buildConflict key (membersUnder members key)) = some conflicts := by
  rw [detectConflicts_eq, Option.bind_eq_some_iff]

/-- **The conflicts have the keys that two names have as their normal form, and each groups the
candidates.** -/
theorem groups_of_detectConflicts (h : detectConflicts candidates = some conflicts) :
    (conflicts.map Conflict.key).Pairwise (· < ·) ∧
    (∀ key, key ∈ conflicts.map Conflict.key ↔ key ≠ "" ∧ ∃ a ∈ candidates, ∃ b ∈ candidates,
      a.name ≠ b.name ∧ normalizeName a.name = key ∧ normalizeName b.name = key) ∧
    ∀ conflict ∈ conflicts, conflict.Groups candidates := by
  obtain ⟨members, summed, built⟩ := detectConflicts_eq_some_iff.1 h
  have keys : conflicts.map Conflict.key = conflictKeys members :=
    map_of_mapM key_of_buildConflict built
  refine ⟨keys ▸ pairwise_conflictKeys members, fun key => ?_, fun conflict mem => ?_⟩
  · rw [keys, mem_conflictKeys, two_le_membersUnder_iff summed]
  · obtain ⟨key, listed, built⟩ := (mem_mapM_iff built).1 mem
    exact groups_of_buildConflict summed (mem_conflictKeys.1 listed).2 built

end

/-! ### Counts that fit -/

/-- Whether no count leaves its range: the sums of every name fit, and if two names are the only
ones with a normal form, which is when they are compared, so do the two sums of each together. -/
@[mk_iff]
structure CountsFit (candidates : List Candidate) : Prop where
  sums  : ∀ c ∈ candidates, filesNamed candidates c.name ≤ greatestCount ∧
    inboundNamed candidates c.name ≤ greatestCount
  pairs : ∀ a ∈ candidates, ∀ b ∈ candidates, a.name ≠ b.name → normalizeName a.name ≠ "" →
    normalizeName b.name = normalizeName a.name →
    (∀ c ∈ candidates, normalizeName c.name = normalizeName a.name →
      c.name = a.name ∨ c.name = b.name) →
    weightNamed candidates a.name ≤ greatestCount

section

variable {candidates : List Candidate} {members : List ConflictMember}

/-- All members fit exactly if the sums of every name do. -/
theorem isSome_membersIn : (membersIn candidates).isSome ↔
    ∀ c ∈ candidates, filesNamed candidates c.name ≤ greatestCount ∧
      inboundNamed candidates c.name ≤ greatestCount := by
  have each : ∀ name, (memberOf candidates name).isSome ↔
      filesNamed candidates name ≤ greatestCount ∧
        inboundNamed candidates name ≤ greatestCount := by
    intro name
    simp only [Option.isSome_iff_exists, memberOf_eq_some_iff]
    constructor
    · rintro ⟨_, files, inbound, -⟩
      exact ⟨files, inbound⟩
    · rintro ⟨files, inbound⟩
      exact ⟨_, files, inbound, rfl⟩
  rw [membersIn, isSome_mapM]
  simp only [mem_sortedSet, each, List.forall_mem_map]

theorem nodup_membersUnder (h : membersIn candidates = some members) (key : String) :
    ((membersUnder members key).map ConflictMember.name).Nodup :=
  (pairwise_membersUnder h key).imp ne_of_lt

/-- There are no more than two members under a key if no third name has it as its normal form. -/
theorem not_three_le_membersUnder (h : membersIn candidates = some members) {key a b : String}
    (only : ∀ c ∈ candidates, normalizeName c.name = key → c.name = a ∨ c.name = b) :
    ¬ 3 ≤ (membersUnder members key).length := by
  intro many
  have among : (membersUnder members key).map ConflictMember.name ⊆ [a, b] := by
    intro name mem
    obtain ⟨form, c, listed, rfl⟩ := (mem_names_membersUnder h).1 mem
    simpa using only c listed form
  have bound := ((nodup_membersUnder h key).subperm among).length_le
  simp only [List.length_map, List.length_cons, List.length_nil] at bound
  omega

/-- There are more than two members under a key if three names have it as their normal form. -/
theorem three_le_membersUnder (h : membersIn candidates = some members) {key : String}
    {a b c : Candidate} (ha : a ∈ candidates) (hb : b ∈ candidates) (hc : c ∈ candidates)
    (distinct : [a.name, b.name, c.name].Nodup) (formA : normalizeName a.name = key)
    (formB : normalizeName b.name = key) (formC : normalizeName c.name = key) :
    3 ≤ (membersUnder members key).length := by
  have among : [a.name, b.name, c.name] ⊆ (membersUnder members key).map ConflictMember.name := by
    intro name mem
    rw [mem_names_membersUnder h]
    simp only [List.mem_cons, List.not_mem_nil, or_false] at mem
    rcases mem with rfl | rfl | rfl
    · exact ⟨formA, a, ha, rfl⟩
    · exact ⟨formB, b, hb, rfl⟩
    · exact ⟨formC, c, hc, rfl⟩
  simpa using (List.Nodup.subperm distinct among).length_le

/-- The two counts of a member are the two sums of its name. -/
theorem weight_of_sums {m : ConflictMember} (sums : m.Sums candidates) :
    m.fileCount + m.inbound = weightNamed candidates m.name := by
  rw [sums.fileCount, sums.inbound, weightNamed]

/-- A key has a conflict unless it has two members and the counts of one do not fit together. -/
theorem isSome_buildConflict (h : membersIn candidates = some members) (key : String) :
    (buildConflict key (membersUnder members key)).isSome ↔
      3 ≤ (membersUnder members key).length ∨
        ∀ a ∈ candidates, normalizeName a.name = key →
          weightNamed candidates a.name ≤ greatestCount := by
  rw [buildConflict, Option.isSome_map, isSome_suggestPrimary]
  refine or_congr_right ⟨fun fits a listed form => ?_, fun fits m mem => ?_⟩
  · obtain ⟨m, mem, named⟩ := List.mem_map.1 ((mem_names_membersUnder h).2 ⟨form, a, listed, rfl⟩)
    rw [← named, ← weight_of_sums (sums_membersIn h m (mem_membersUnder.1 mem).1)]
    exact fits m mem
  · obtain ⟨form, a, listed, named⟩ :=
      (mem_names_membersUnder h).1 (List.mem_map.2 ⟨m, mem, rfl⟩)
    rw [weight_of_sums (sums_membersIn h m (mem_membersUnder.1 mem).1), ← named]
    exact fits a listed (named ▸ form)

/-- **There is a result exactly if no count leaves its range.** -/
theorem isSome_detectConflicts : (detectConflicts candidates).isSome ↔ CountsFit candidates := by
  rw [detectConflicts_eq]
  constructor
  · intro found
    obtain ⟨conflicts, eq⟩ := Option.isSome_iff_exists.1 found
    obtain ⟨members, summed, eq⟩ := Option.bind_eq_some_iff.1 eq
    have found := isSome_mapM.1 (Option.isSome_of_eq_some eq)
    refine ⟨isSome_membersIn.1 (by rw [summed]; rfl), fun a ha b hb ne filled form only => ?_⟩
    have two := (two_le_membersUnder_iff summed).2 ⟨a, ha, b, hb, ne, rfl, form⟩
    have fits := (isSome_buildConflict summed _).1 (found _ (mem_conflictKeys.2 ⟨filled, two⟩))
    exact fits.resolve_left (not_three_le_membersUnder summed only) a ha rfl
  · rintro ⟨sums, pairs⟩
    obtain ⟨members, summed⟩ := Option.isSome_iff_exists.1 (isSome_membersIn.2 sums)
    rw [summed, Option.bind_some, isSome_mapM]
    intro key listed
    obtain ⟨filled, two⟩ := mem_conflictKeys.1 listed
    rw [isSome_buildConflict summed]
    refine or_iff_not_imp_left.2 fun few a ha form => ?_
    subst form
    -- with the name there is exactly one other
    obtain ⟨b, hb, ne, form⟩ : ∃ b ∈ candidates, a.name ≠ b.name ∧
        normalizeName b.name = normalizeName a.name := by
      obtain ⟨x, hx, y, hy, ne, formX, formY⟩ := (two_le_membersUnder_iff summed).1 two
      by_cases same : a.name = x.name
      · exact ⟨y, hy, same ▸ ne, formY⟩
      · exact ⟨x, hx, same, formX⟩
    refine pairs a ha b hb ne filled form fun c hc formC => ?_
    by_contra third
    obtain ⟨notA, notB⟩ := not_or.1 third
    refine few (three_le_membersUnder summed ha hb hc ?_ rfl form formC)
    simp [ne, Ne.symm notA, Ne.symm notB]

end

/-! ### The order of the candidates -/

/-- Whether two members are equal, their paths compared by components. -/
def ConflictMember.Same (a b : ConflictMember) : Prop :=
  a.name = b.name ∧ a.paths.map Path.ofText = b.paths.map Path.ofText ∧
    a.fileCount = b.fileCount ∧ a.inbound = b.inbound ∧ a.nonEmpty = b.nonEmpty

/-- Whether two conflicts are equal, the paths of their members compared by components. -/
def Conflict.Same (a b : Conflict) : Prop :=
  a.key = b.key ∧ List.Forall₂ ConflictMember.Same a.members b.members ∧
    a.suggestedPrimary = b.suggestedPrimary ∧ a.severity = b.severity ∧
    a.isAmbiguous = b.isAmbiguous ∧ a.issue = b.issue

section

variable {candidates candidates' : List Candidate}

/-- Sums do not depend on the order of candidates. -/
theorem filesNamed_perm (perm : candidates.Perm candidates') (name : String) :
    filesNamed candidates name = filesNamed candidates' name := by
  rw [filesNamed, filesNamed, ((perm.filter _).map _).sum_eq]

theorem inboundNamed_perm (perm : candidates.Perm candidates') (name : String) :
    inboundNamed candidates name = inboundNamed candidates' name := by
  rw [inboundNamed, inboundNamed, ((perm.filter _).map _).sum_eq]

/-- Whether counts fit does not depend on the order either. -/
theorem countsFit_perm (perm : candidates.Perm candidates') :
    CountsFit candidates ↔ CountsFit candidates' := by
  have weights : ∀ name, weightNamed candidates name = weightNamed candidates' name := by
    intro name
    rw [weightNamed, weightNamed, filesNamed_perm perm, inboundNamed_perm perm]
  simp only [countsFit_iff, perm.mem_iff, filesNamed_perm perm, inboundNamed_perm perm, weights]

/-- A member is known by its name and the candidates, up to the spelling of paths. -/
theorem ConflictMember.Sums.same (perm : candidates.Perm candidates') {a b : ConflictMember}
    (ha : a.Sums candidates) (hb : b.Sums candidates') (name : a.name = b.name) : a.Same b := by
  refine ⟨name, ?_, ?_, ?_, ?_⟩
  · refine eq_of_pairwise_lt ha.sorted hb.sorted fun path => ?_
    rw [ha.paths, hb.paths, name]
    simp only [perm.mem_iff]
  · rw [ha.fileCount, hb.fileCount, name, filesNamed_perm perm]
  · rw [ha.inbound, hb.inbound, name, inboundNamed_perm perm]
  · rw [Bool.eq_iff_iff, ha.nonEmpty, hb.nonEmpty, name]
    simp only [perm.mem_iff]

/-- What is the same for two members is the same for two lists of them. -/
theorem map_eq_of_same {α : Type} {f : ConflictMember → α}
    (equal : ∀ {a b : ConflictMember}, a.Same b → f a = f b) :
    ∀ {members members' : List ConflictMember},
      List.Forall₂ ConflictMember.Same members members' → members.map f = members'.map f
  | _, _, .nil => rfl
  | _, _, .cons same later => by
      rw [List.map_cons, List.map_cons, equal same, map_eq_of_same equal later]

theorem listMember_of_same {a b : ConflictMember} (h : a.Same b) : listMember a = listMember b := by
  have slashes : ∀ m : ConflictMember, (m.paths.map fun path => (Path.ofText path).slash) =
      (m.paths.map Path.ofText).map Path.slash := fun m => by rw [List.map_map]; rfl
  rw [listMember, listMember, slashes, slashes, h.1, h.2.1]

namespace Conflict.Groups

variable {a b : Conflict}

/-- Two conflicts of one key have the same names. -/
theorem memberNames_eq (perm : candidates.Perm candidates') (ha : a.Groups candidates)
    (hb : b.Groups candidates') (key : a.key = b.key) : a.memberNames = b.memberNames := by
  refine eq_of_pairwise_lt (ha.ordered.imp compare_lt_iff_lt.2) (hb.ordered.imp compare_lt_iff_lt.2)
    fun name => ?_
  rw [ha.names, hb.names, key]
  simp only [perm.mem_iff]

/-- **They have the same members**, up to the spelling of paths. -/
theorem same_members (perm : candidates.Perm candidates') (ha : a.Groups candidates)
    (hb : b.Groups candidates') (key : a.key = b.key) :
    List.Forall₂ ConflictMember.Same a.members b.members :=
  (forall₂_of_map_eq (memberNames_eq perm ha hb key) ha.sums hb.sums).imp
    fun _ _ h => h.1.same perm h.2.1 h.2.2

/-- The names of the members that are to be kept are the same: each would be better than the
other. -/
theorem primary_eq (perm : candidates.Perm candidates') (ha : a.Groups candidates)
    (hb : b.Groups candidates') (key : a.key = b.key) {name name' : String}
    (primary : a.suggestedPrimary = some name) (primary' : b.suggestedPrimary = some name') :
    name = name' := by
  have names := memberNames_eq perm ha hb key
  obtain ⟨m, mem, rfl, better⟩ := ha.primary name primary
  obtain ⟨m', mem', rfl, better'⟩ := hb.primary name' primary'
  by_contra ne
  have listed : m'.name ∈ a.memberNames := by
    rw [names]
    exact List.mem_map_of_mem mem'
  have listed' : m.name ∈ b.memberNames := by
    rw [← names]
    exact List.mem_map_of_mem mem
  obtain ⟨other, there, named⟩ := List.mem_map.1 listed
  obtain ⟨other', there', named'⟩ := List.mem_map.1 listed'
  have first := better other there (named ▸ Ne.symm ne)
  have second := better' other' there' (named' ▸ ne)
  have weights : ∀ name, weightNamed candidates' name = weightNamed candidates name := by
    intro name
    rw [weightNamed, weightNamed, filesNamed_perm perm, inboundNamed_perm perm]
  simp only [ConflictMember.Better, weight_of_sums (ha.sums _ mem),
    weight_of_sums (ha.sums _ there), weight_of_sums (hb.sums _ mem'),
    weight_of_sums (hb.sums _ there'), weights, named, named']
    at first second
  rcases first with first | ⟨equal, first⟩
  · omega
  · rcases second with second | ⟨-, second⟩
    · omega
    · rcases first with first | ⟨length, first⟩
      · omega
      · rcases second with second | ⟨-, second⟩
        · omega
        · exact lt_asymm first second

/-- **A conflict is known by its key and the candidates**, up to the spelling of paths. -/
theorem same (perm : candidates.Perm candidates') (ha : a.Groups candidates)
    (hb : b.Groups candidates') (key : a.key = b.key) : a.Same b := by
  have members := same_members perm ha hb key
  have length : a.members.length = b.members.length := members.length_eq
  have none : a.suggestedPrimary = none ↔ b.suggestedPrimary = none := by
    rw [ha.noPrimary, hb.noPrimary, length]
  have primary : a.suggestedPrimary = b.suggestedPrimary := by
    cases eq : a.suggestedPrimary with
    | none => exact (none.1 eq).symm
    | some name =>
        cases eq' : b.suggestedPrimary with
        | none => rw [none.2 eq'] at eq; cases eq
        | some name' => rw [primary_eq perm ha hb key eq eq']
  have critical : a.severity = .critical ↔ b.severity = .critical := by
    have use : a.members.map (fun m => (m.nonEmpty, m.inbound)) =
        b.members.map fun m => (m.nonEmpty, m.inbound) :=
      map_eq_of_same (fun h => Prod.ext h.2.2.2.2 h.2.2.2.1) members
    have through : ∀ members : List ConflictMember, (∀ m ∈ members, m.nonEmpty ∧ 0 < m.inbound) ↔
        ∀ p ∈ members.map (fun m => (m.nonEmpty, m.inbound)), p.1 = true ∧ 0 < p.2 := by
      simp only [List.forall_mem_map, implies_true]
    rw [ha.critical, hb.critical, through, through, use]
  refine ⟨key, members, primary, ?_, ?_, ?_⟩
  · cases eq : a.severity <;> cases eq' : b.severity <;> simp_all
  · rw [Bool.eq_iff_iff, ha.ambiguous, hb.ambiguous, length]
  · have listed : a.members.map listMember = b.members.map listMember :=
      map_eq_of_same listMember_of_same members
    rw [ha.issue, hb.issue, key, primary, listed]

end Conflict.Groups

end

/-- **Conflicts group the candidates, and the order of the candidates does not matter.**

* There is a result exactly if no count leaves its range.
* The keys of a result are in strict order, and are exactly the texts, other than the empty one,
  that two or more names have as their normal form. Each conflict groups the candidates
  (`Conflict.Groups`): its members are the names with its key as their normal form, in order, each
  with the sums over the candidates of its name.
* Candidates in another order give the same result, paths compared by components, and no result
  exactly if there is none here. -/
theorem detectConflicts_groups (candidates : List Candidate) :
    ((detectConflicts candidates).isSome ↔ CountsFit candidates) ∧
    (∀ conflicts, detectConflicts candidates = some conflicts →
      (conflicts.map Conflict.key).Pairwise (· < ·) ∧
      (∀ key, key ∈ conflicts.map Conflict.key ↔ key ≠ "" ∧ ∃ a ∈ candidates, ∃ b ∈ candidates,
        a.name ≠ b.name ∧ normalizeName a.name = key ∧ normalizeName b.name = key) ∧
      ∀ conflict ∈ conflicts, conflict.Groups candidates) ∧
    ∀ candidates', candidates.Perm candidates' →
      Option.Rel (List.Forall₂ Conflict.Same) (detectConflicts candidates)
        (detectConflicts candidates') := by
  refine ⟨isSome_detectConflicts, fun conflicts => groups_of_detectConflicts,
    fun candidates' perm => ?_⟩
  have both : (detectConflicts candidates).isSome ↔ (detectConflicts candidates').isSome := by
    rw [isSome_detectConflicts, isSome_detectConflicts, countsFit_perm perm]
  cases found : detectConflicts candidates with
  | none =>
      rw [found] at both
      rw [Option.not_isSome_iff_eq_none.1 (mt both.2 (by simp))]
      exact .none
  | some conflicts =>
      rw [found] at both
      obtain ⟨conflicts', found'⟩ := Option.isSome_iff_exists.1 (both.1 rfl)
      obtain ⟨sorted, keys, groups⟩ := groups_of_detectConflicts found
      obtain ⟨sorted', keys', groups'⟩ := groups_of_detectConflicts found'
      have same : conflicts.map Conflict.key = conflicts'.map Conflict.key := by
        refine eq_of_pairwise_lt (sorted.imp compare_lt_iff_lt.2)
          (sorted'.imp compare_lt_iff_lt.2) fun key => ?_
        rw [keys, keys']
        simp only [perm.mem_iff]
      rw [found']
      exact .some ((forall₂_of_map_eq same groups groups').imp fun _ _ h =>
        h.1.same perm h.2.1 h.2.2)

/-- A directory and two modules whose names differ in case and a plural `s`. -/
def configCandidates : List Candidate :=
  [⟨"configs", "app/configs", 2, 0, true⟩, ⟨"Config", "app//Config.py", 1, 3, true⟩,
   ⟨"Config", "app/Config.py", 1, 0, false⟩]

/-- The two names make a conflict. -/
theorem detectConflicts_groups_config : ∃ conflicts,
    detectConflicts configCandidates = some conflicts ∧ "config" ∈ conflicts.map Conflict.key := by
  have weights : ∀ c ∈ configCandidates, weightNamed configCandidates c.name ≤ greatestCount := by
    decide
  have fits : CountsFit configCandidates :=
    ⟨fun c listed => by have := weights c listed; rw [weightNamed] at this; omega,
      fun a listed _ _ _ _ _ _ => weights a listed⟩
  obtain ⟨found, keys, -⟩ := detectConflicts_groups configCandidates
  obtain ⟨conflicts, eq⟩ := Option.isSome_iff_exists.1 (found.2 fits)
  refine ⟨conflicts, eq, ((keys conflicts eq).2.1 "config").2 ⟨by decide, _, List.mem_cons_self, _,
    .tail _ List.mem_cons_self, by decide, ?_, ?_⟩⟩
  · decide +kernel
  · decide +kernel

end CodeSurvey
