import PathAcl.Permission
import PathAcl.Storage
import PathAcl.Time.Span

/-! # The index of storages
For a set of sids the index remembers the storages in which one of them holds a row. Two directories
find the sets that a write may concern: by a sid of the set, and by a storage of the remembered
answer. The answer to a question asked before a write must not be remembered after it, so the writes
are counted, and an answer is kept only if no write came since its question. -/

namespace PathAcl

/-- A set of sids as a question: in order and none twice (`SidSetKey`). -/
abbrev SidSet : Type := SortedSet Sid

/-- Which questions to look at, listed under keys of one kind. -/
abbrev Directory (κ : Type) [Ord κ] : Type := SortedMap κ (SortedSet SidSet)

namespace Directory

variable {κ : Type} [Ord κ] [Std.TransOrd κ] [Std.LawfulEqOrd κ]

/-- The questions listed under a key. -/
def listed (d : Directory κ) (k : κ) : SortedSet SidSet := (d.find? k).getD ∅

/-- Lists a question under some keys. -/
def enter (d : Directory κ) (question : SidSet) (ks : List κ) : Directory κ :=
  ks.foldl (fun d k => d.insert k ((listed d k).add question)) d

/-- Strikes a question from some keys; the keys stay. -/
def strike (d : Directory κ) (question : SidSet) (ks : List κ) : Directory κ :=
  ks.foldl (fun d k => d.modify k fun questions => questions.erase question) d

end Directory

/-- The **index** (`IndexCache`). -/
structure StorageIndex where
  /-- The remembered answers. -/
  answers : SortedMap SidSet (SortedSet StorageRef)
  /-- The questions that name a sid. -/
  bySid : Directory Sid
  /-- The questions whose answer names a storage. It may also list questions that were forgotten. -/
  byStorage : Directory StorageId
  /-- The number of writes so far, in 64 bits (`generation`): after the last number it begins again. -/
  writes : UInt64

namespace StorageIndex

/-- The index that remembers nothing. -/
def empty : StorageIndex := ⟨∅, ∅, ∅, 0⟩

instance : EmptyCollection StorageIndex := ⟨empty⟩

instance : Inhabited StorageIndex := ⟨empty⟩

/-- The remembered answer to a question (`get`). -/
def answer? (x : StorageIndex) (question : SidSet) : Option (SortedSet StorageRef) :=
  x.answers.find? question

/-- Forgets the answer to a question (`forget_key`). -/
def forget (x : StorageIndex) (question : SidSet) : StorageIndex :=
  { x with
    answers := x.answers.erase question
    bySid := x.bySid.strike question question.members }

/-- Remembers an answer whose question was asked after `asked` writes, unless a write came since; tells
whether it is remembered (`insert_if_current`). If it is not, an older answer is gone too. -/
def remember (x : StorageIndex) (question : SidSet) (answer : SortedSet StorageRef) (asked : UInt64) :
    Bool × StorageIndex :=
  -- listed first and struck again if the answer is stale, so the keys of the directories stay
  let kept : StorageIndex :=
    { x with
      answers := x.answers.insert question answer
      bySid := x.bySid.enter question question.members
      byStorage := x.byStorage.enter question (answer.members.map StorageRef.id) }
  if x.writes = asked then (true, kept) else (false, kept.forget question)

/-- The questions whose answer a write to a storage may change if it touches rows of the sids. -/
def concerned (x : StorageIndex) (id : StorageId) (sids : List Sid) : SortedSet SidSet :=
  sids.foldl (fun questions sid => questions.union (x.bySid.listed sid)) (x.byStorage.listed id)

/-- Takes note of a write: forgets every answer it may change, and tells how many
(`invalidate_for_write`). -/
def noteWrite (x : StorageIndex) (id : StorageId) (sids : List Sid) : Nat × StorageIndex :=
  let stale := x.concerned id sids
  let cleared : StorageIndex :=
    { x with
      bySid := sids.foldl SortedMap.erase x.bySid
      byStorage := x.byStorage.erase id
      writes := x.writes + 1 }
  (stale.size, stale.members.foldl forget cleared)

/-- The number of remembered answers (`entry_count`). -/
def size (x : StorageIndex) : Nat := x.answers.size

end StorageIndex

/-- Whether to keep an index, of how many answers, and for how long (`IndexCacheConfig`). -/
structure IndexSettings where
  enabled : Bool
  capacity : UInt64
  seconds : UInt64
  deriving Repr, DecidableEq

namespace IndexSettings

/-- No index; one that is switched on keeps ten thousand answers for half a minute. -/
def default : IndexSettings := ⟨false, 10000, 30⟩

instance : Inhabited IndexSettings := ⟨default⟩

/-- An index with these settings, if they want one. -/
def start (s : IndexSettings) : Option StorageIndex := if s.enabled then some ∅ else none

/-- The settings for a log. -/
def text (s : IndexSettings) : String :=
  s!"IndexCacheConfig \x7b enabled: {s.enabled}, max_capacity: {s.capacity.toNat}, " ++
    s!"ttl: {(Span.ofSeconds s.seconds.toNat).text} \x7d"

end IndexSettings

/-- An index with its settings, for a log. -/
def StorageIndex.text (x : StorageIndex) (settings : IndexSettings) : String :=
  s!"IndexCache \x7b config: {settings.text}, entry_count: {x.size}, " ++
    s!"sid_index_size: {x.bySid.size}, storage_index_size: {x.byStorage.size} \x7d"

end PathAcl
