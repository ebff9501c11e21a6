import CodeSurvey.Discovery
import CodeSurvey.Proofs.Order
import Mathlib.Data.List.Nodup

/-!
# What a walk finds

The files that a walk finds lie at different paths, and each has the language of its extension.

* `Found.flatMap`: what is found below the names of a directory is found below the directory.
* `walkFrom_found`, `walk_found`: so every walk finds files in this way.
-/

namespace CodeSurvey

namespace Discovery

/-- The file that the walk meets, if it is one. -/
def Discovered.source? : Discovered → Option SourceFile
  | .file source => some source
  | .skipped _   => none

/-- The files among what the walk meets. -/
def sources (met : List Discovered) : List SourceFile :=
  met.filterMap Discovered.source?

@[simp] theorem sources_skipped (d : Diagnostic) : sources [.skipped d] = [] := rfl

/-- The sources of several walks are those of each, in turn. -/
theorem sources_flatMap {α : Type} (items : List α) (f : α → List Discovered) :
    sources (items.flatMap f) = items.flatMap fun x => sources (f x) :=
  List.filterMap_flatMap ..

/-- Files found below a directory that has the given names: at different paths there, and each in
the language of its extension. -/
structure Found (names : List String) (files : List SourceFile) : Prop where
  below    : ∀ file ∈ files, ∃ rest, file.path = .ofNames (names ++ rest)
  language : ∀ file ∈ files, file.language = .ofExtension (file.path.extension.map Text.lower)
  distinct : (files.map SourceFile.path).Nodup

namespace Found

theorem nil (names : List String) : Found names [] :=
  ⟨nofun, nofun, .nil⟩

/-- What is found below the names of a directory is found below the directory. -/
theorem flatMap {names entries : List String} {f : String → List SourceFile}
    (nodup : entries.Nodup) (each : ∀ name ∈ entries, Found (names ++ [name]) (f name)) :
    Found names (entries.flatMap f) where
  below file h := by
    obtain ⟨name, hn, h⟩ := List.mem_flatMap.1 h
    obtain ⟨rest, eq⟩ := (each name hn).below file h
    exact ⟨name :: rest, by rw [eq, List.append_assoc]; rfl⟩
  language file h := by
    obtain ⟨name, hn, h⟩ := List.mem_flatMap.1 h
    exact (each name hn).language file h
  distinct := by
    rw [List.map_flatMap, List.nodup_flatMap]
    refine ⟨fun name hn => (each name hn).distinct, nodup.imp_of_mem ?_⟩
    intro a b ha hb ne path inA inB
    obtain ⟨x, hx, rfl⟩ := List.mem_map.1 inA
    obtain ⟨y, hy, same⟩ := List.mem_map.1 inB
    obtain ⟨p, hp⟩ := (each a ha).below x hx
    obtain ⟨q, hq⟩ := (each b hb).below y hy
    -- the two paths differ in the name right below the directory
    rw [hp, hq, Path.ofNames, Path.ofNames, Path.mk.injEq] at same
    have names := List.map_injective_iff.2 (fun _ _ h => Component.name.inj h) same
    rw [List.append_assoc, List.append_assoc] at names
    exact ne (List.cons.inj (List.append_cancel_left names)).1.symm

end Found

variable (discovery : Discovery) (tree : FileTree)

/-! ### Entries -/

/-- **What the walk knows of a file it takes from its path**: where it lies, and the language of its
extension. -/
theorem file_of_fileEntry {names : List String} {size : Nat} {source : SourceFile}
    (h : discovery.fileEntry names size = some (.file source)) :
    source.location = discovery.pathTo names ∧ source.path = .ofNames names ∧
      source.language = .ofExtension ((Path.ofNames names).extension.map Text.lower) ∧
      ∃ extension, (Path.ofNames names).extension = some extension ∧
        Text.lower extension ∈ discovery.config.fileExtensions := by
  simp only [fileEntry] at h
  split at h
  · cases h
  · cases extension : (Path.ofNames names).extension with
    | none => simp [extension] at h
    | some ext =>
        simp only [extension, Option.map_some] at h
        split at h
        · cases h
        · rename_i listed
          split at h
          · cases h
          · cases h
            exact ⟨rfl, rfl, rfl, ext, rfl, by simpa using listed⟩

/-- An entry that is a file gives that one file. -/
theorem fileEntry_found (names : List String) (size : Nat) :
    Found names (sources (discovery.fileEntry names size).toList) := by
  cases entry : discovery.fileEntry names size with
  | none => exact .nil names
  | some d =>
      cases d with
      | skipped => exact .nil names
      | file source =>
          obtain ⟨-, path, language, -⟩ := discovery.file_of_fileEntry entry
          refine ⟨fun f hf => ⟨[], ?_⟩, fun f hf => ?_, List.nodup_singleton _⟩
          · rw [List.mem_singleton.1 hf, List.append_nil, path]
          · rw [List.mem_singleton.1 hf, language, path]

/-- What the walk meets at a name in a directory; `enter` goes on in a directory. -/
def meet (inside : List (Place × List String))
    (place : Place) (names : List String) (name : String) (enter : Place → List Discovered) :
    List Discovered :=
  let inner := names ++ [name]
  match tree.entryAt (place ++ [name]) with
  | none                   => []
  | some .directory        => enter (place ++ [name])
  | some (.file content _) => (discovery.fileEntry inner content.size).toList
  | some (.link _)         =>
    if !discovery.config.followLinks then []
    else
      match tree.follow true 40 place [.name name] with
      | .error e                          => [.skipped (discovery.walkFailure inner e)]
      | .ok (_, none)                     => [.skipped (discovery.walkFailure inner .notFound)]
      | .ok (_, some (.file content _))   => (discovery.fileEntry inner content.size).toList
      | .ok (_, some (.link _))           => []
      | .ok (target, some .directory)     =>
        match inside.find? fun (ancestor, _) => ancestor = target with
        | some (_, ancestor) =>
          [.skipped (.ofFailure (.linkCycle (String.intercalate "/" inner)
            (String.intercalate "/" ancestor)))]
        | none => enter target

/-- At the name of a file the walk looks at its size and its name, and does not enter. -/
theorem meet_file {inside : List (Place × List String)} {place : Place} {names : List String}
    {name : String} {enter : Place → List Discovered} {content : ByteArray} {modified : Nat}
    (there : tree.entryAt (place ++ [name]) = some (.file content modified)) :
    discovery.meet tree inside place names name enter =
      (discovery.fileEntry (names ++ [name]) content.size).toList := by
  rw [meet, there]

/-- A directory is walked through name by name. -/
theorem walkFrom_succ (fuel : Nat) (above : List (Place × List String))
    (place : Place) (names : List String) :
    discovery.walkFrom tree (fuel + 1) above place names =
      (tree.namesIn place).flatMap fun name =>
        discovery.meet tree ((place, names) :: above) place names name fun target =>
          if discovery.isPruned tree (names ++ [name]) then []
          else discovery.walkFrom tree fuel ((place, names) :: above) target (names ++ [name]) := rfl

/-- What is met at a name lies below it, if what is found inside does. -/
theorem meet_found {inside : List (Place × List String)} {place : Place} {names : List String}
    {name : String} {enter : Place → List Discovered}
    (entered : ∀ target, Found (names ++ [name]) (sources (enter target))) :
    Found (names ++ [name]) (sources (discovery.meet tree inside place names name enter)) := by
  rw [meet]
  split
  · exact .nil _
  · exact entered _
  · exact discovery.fileEntry_found ..
  · split
    · exact .nil _
    · split
      · exact .nil _
      · exact .nil _
      · exact discovery.fileEntry_found ..
      · exact .nil _
      · split
        · exact .nil _
        · exact entered _

/-! ### The walk -/

theorem nodup_namesIn (place : Place) : (tree.namesIn place).Nodup :=
  nodup_sortedSet _

/-- **The files below a directory lie at different paths.** -/
theorem walkFrom_found : ∀ (fuel : Nat) (above : List (Place × List String)) (place : Place)
    (names : List String), Found names (sources (discovery.walkFrom tree fuel above place names))
  | 0, _, _, names => .nil names
  | fuel + 1, above, place, names => by
      rw [walkFrom_succ, sources_flatMap]
      refine .flatMap (nodup_namesIn tree place) fun name _ => ?_
      refine discovery.meet_found tree fun target => ?_
      split
      · exact .nil _
      · exact walkFrom_found fuel _ target _

/-- So does the walk of a project, which finds nothing if it cannot start. -/
theorem walk_found : Found [] (sources (discovery.walk tree)) := by
  rw [walk]
  split
  · exact .nil _
  · exact discovery.walkFrom_found ..
  · exact .nil _

/-- **The files of a project lie at different paths.** -/
theorem run_found : Found [] (discovery.run tree).1 :=
  discovery.walk_found tree

end Discovery

end CodeSurvey
