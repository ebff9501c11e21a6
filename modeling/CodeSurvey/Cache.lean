import CodeSurvey.FileTree
import CodeSurvey.Index.Symbol

/-!
# The cache of indexes

Keeps the index of every file between surveys of one tree. A kept index is served while the file
has the size and the time of change it had when it was indexed, and is described in the same way.

* `ScanCache.find` looks an index up, and `ScanCache.count` keeps the score of such attempts.
* `ScanCache.insert` and `ScanCache.retain` bring the cache up to date.
-/

namespace CodeSurvey

/-- A kept index, with what its file was known by. -/
structure CacheEntry where
  fingerprint : Fingerprint
  index       : FileIndex

/-- The kept indexes by the locations of their files, and how many attempts found one and how many
did not. -/
structure ScanCache where
  entries : List (Path × CacheEntry) := []
  hits    : Nat := 0
  misses  : Nat := 0

namespace ScanCache

variable (cache : ScanCache)

/-- The kept index of a file that is now known by `current`. -/
def find (current : Option Fingerprint) (file : SourceFile) : Option FileIndex :=
  (cache.entries.lookup file.location).bind fun entry =>
    if current = some entry.fingerprint ∧ entry.index.file = file then some entry.index else none

/-- The cache after attempts with some results. -/
def count (found : List (Option FileIndex)) : ScanCache :=
  { cache with
    hits   := cache.hits + found.countP Option.isSome
    misses := cache.misses + found.countP Option.isNone }

/-- Keeps the index of a file, unless the file is gone. -/
def insert (current : Option Fingerprint) (location : Path) (index : FileIndex) : ScanCache :=
  match current with
  | none             => cache
  | some fingerprint =>
    { cache with entries :=
        (location, ⟨fingerprint, index⟩) :: cache.entries.filter fun e => e.1 ≠ location }

/-- Forgets every file that is not at one of the given locations. -/
def retain (locations : List Path) : ScanCache :=
  { cache with entries := cache.entries.filter fun e => locations.contains e.1 }

/-- How many indexes are kept. -/
def size : Nat :=
  cache.entries.length

end ScanCache

end CodeSurvey
