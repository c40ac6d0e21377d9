import Reconciliation.Proofs.Histories
import Reconciliation.Proofs.Store.Writing

/-!
Versions over the life of a store. A log holds all requests that have come to a store, whoever has
made them. `Disciplined` says what versions are good for: none is handed out twice, the version of a
stored document is the one that was handed out last under its key, and a write that expects another
one is refused.
-/
namespace Reconciliation.Store

/-- A request that has come to a store. -/
structure Entry where
  request : Request
  now : Timestamp
  /-- The store that it came to. -/
  before : Store

namespace Entry

def answer (entry : Entry) : entry.request.Answer :=
  (entry.request.serve entry.now entry.before).1

def after (entry : Entry) : Store :=
  (entry.request.serve entry.now entry.before).2

/-- A version is handed out for what the request commits under a key. -/
structure HandsOut (entry : Entry) (key : Key) (number : Nat) : Prop where
  written : entry.request.written? = some key
  fresh : entry.before.version < number
  version : entry.after.version = number

def Commits (entry : Entry) : Prop :=
  ∃ key number, entry.HandsOut key number

/-- What the request leaves under a key and what it is answered with have a version, and nothing
else has changed. -/
structure Stamps (entry : Entry) (key : Key) (number : Nat) : Prop where
  stored : ∀ {document}, entry.after.objects.get? key = some document →
    document.version? = some (toString number)
  given : ∀ {resource}, entry.request.given? entry.answer = some resource →
    resource.metadata.version = some (toString number)
  others : ∀ {other}, other ≠ key → entry.after.objects.get? other = entry.before.objects.get? other

variable {entry : Entry} {key key' : Key} {number number' : Nat}

/-- A request hands out at most one version. -/
theorem HandsOut.unique (h : entry.HandsOut key number) (h' : entry.HandsOut key' number') :
    key = key' ∧ number = number' :=
  ⟨Option.some.inj (h.written.symm.trans h'.written), h.version.symm.trans h'.version⟩

/-- What hands out a version has committed a draft. -/
theorem HandsOut.exists_draft (h : entry.HandsOut key number) :
    ∃ draft, entry.before.Drafts entry.now entry.request key draft ∧
      entry.after.objects = (entry.before.commit key draft).2.objects ∧
      number = entry.before.version + 1 ∧
      ∀ resource, entry.request.given? entry.answer = some resource →
        Resource.ofJson (draft.withVersion (toString number)) = .ok resource := by
  cases entry.before.serves entry.now entry.request with
  | kept _ hVersion _ =>
      have hSame : entry.after.version = entry.before.version := hVersion
      have hFresh := h.fresh
      have hHanded := h.version
      omega
  | committed hDraft hObjects hVersion hGiven =>
      obtain rfl : _ = key := Option.some.inj (hDraft.written.symm.trans h.written)
      obtain rfl : entry.before.version + 1 = number := hVersion.symm.trans h.version
      exact ⟨_, hDraft, hObjects, rfl, hGiven⟩

/-- A version that is handed out stands on what was committed and on the answer. -/
theorem HandsOut.stamps (hSound : entry.before.Sound) (h : entry.HandsOut key number) :
    entry.Stamps key number := by
  obtain ⟨draft, hDraft, hObjects, rfl, hGiven⟩ := h.exists_draft
  have hParts := hDraft.hasParts hSound
  refine ⟨fun hGet => ?_, fun hAnswer => ?_, fun hOther => ?_⟩
  · rw [hObjects, get?_commit, if_pos rfl] at hGet
    split at hGet
    · cases hGet
    · cases hGet
      exact hParts.version? _
  · exact (Resource.version_of_ofJson (hParts.withVersion _) (hParts.version? _)
      (hGiven _ hAnswer)).1
  · rw [hObjects, get?_commit, if_neg hOther]

/-- What is not committed changes nothing. -/
theorem objects_eq_of_not_commits (h : ¬entry.Commits) :
    entry.after.objects = entry.before.objects := by
  cases entry.before.serves entry.now entry.request with
  | kept hObjects _ _ => exact hObjects
  | committed hDraft _ hVersion _ =>
      exact absurd ⟨_, _, hDraft.written, Nat.lt_succ_self _, hVersion⟩ h

/-- A write that commits has found the version that it expects. -/
theorem HandsOut.exists_expected (h : entry.HandsOut key number) {version : String}
    (hExpected : entry.request.expected? = some version) :
    ∃ stored, entry.before.objects.get? key = some stored ∧ stored.version? = some version := by
  obtain ⟨_, hDraft, -⟩ := h.exists_draft
  exact hDraft.exists_expected hExpected

end Entry

/-- The requests that a store which began empty has served, the first one first. -/
inductive Logged : List Entry → Store → Prop where
  | empty : Logged [] {}
  | serve {log : List Entry} {store : Store} (prior : Logged log store) (now : Timestamp)
    (request : Request) :
    Logged (log ++ [⟨request, now, store⟩]) (request.serve now store).2
  | resetCalls {log : List Entry} {store : Store} (prior : Logged log store) :
    Logged log store.resetCalls

variable {log first between : List Entry} {store : Store} {key : Key}

theorem Logged.reachable (h : Logged log store) : store.Reachable := by
  induction h with
  | empty => exact .empty
  | serve _ now request ih => exact ih.serve now request
  | resetCalls _ ih => exact ih.resetCalls

/-- What comes before a request in a log is the log of the store that the request came to. -/
theorem Logged.prior_of_eq (h : Logged log store) {entry : Entry} {later : List Entry}
    (hLog : log = first ++ entry :: later) : Logged first entry.before := by
  induction h generalizing later with
  | empty => exact absurd hLog (by simp)
  | serve prior now request ih =>
      rcases List.last_cases hLog with ⟨-, rfl, rfl⟩ | ⟨rest, -, hRest⟩
      · exact prior
      · exact ih hRest
  | resetCalls _ ih => exact ih hLog

theorem Logged.sound_of_mem (h : Logged log store) {entry : Entry} (hEntry : entry ∈ log) :
    entry.before.Sound := by
  obtain ⟨first, later, hLog⟩ := List.append_of_mem hEntry
  exact (h.prior_of_eq hLog).reachable.sound

/-- No version in a log is above the last one. -/
theorem Logged.version_le (h : Logged log store) :
    ∀ entry ∈ log, entry.after.version ≤ store.version := by
  induction h with
  | empty => exact fun _ hEntry => absurd hEntry List.not_mem_nil
  | serve prior now request ih =>
      intro entry hEntry
      rcases List.mem_append.1 hEntry with hOld | hNew
      · exact Nat.le_trans (ih entry hOld)
          (changed_serve prior.reachable.sound now request).version_le
      · rw [List.mem_singleton.1 hNew]
        exact Nat.le_refl _
  | resetCalls _ ih => exact ih

/-- Versions only grow. -/
theorem Logged.increasing (h : Logged log store) :
    log.Pairwise fun first second => ∀ {key number key' number'},
      first.HandsOut key number → second.HandsOut key' number' → number < number' := by
  induction h with
  | empty => exact .nil
  | @serve log store prior now request ih =>
      refine List.pairwise_append.2 ⟨ih, List.pairwise_singleton _ _, ?_⟩
      intro first hFirst second hSecond _ number _ number' hHanded hHanded'
      rw [List.mem_singleton.1 hSecond] at hHanded'
      calc number = first.after.version := hHanded.version.symm
        _ ≤ store.version := prior.version_le first hFirst
        _ < number' := hHanded'.fresh
  | resetCalls _ ih => exact ih

/-- A commit and the requests since, of which none has committed under the same key. -/
structure LastCommit (log : List Entry) (key : Key) (number : Nat) (first : List Entry)
    (commit : Entry) (since : List Entry) : Prop where
  split : log = first ++ commit :: since
  handsOut : commit.HandsOut key number
  alone : ∀ entry ∈ since, ∀ number, ¬entry.HandsOut key number

/-- Each stored document has the version that was handed out last under its key. -/
theorem Logged.exists_lastCommit (h : Logged log store) {document : Json}
    (hGet : store.objects.get? key = some document) :
    ∃ number first commit since, LastCommit log key number first commit since ∧
      document.version? = some (toString number) := by
  induction h with
  | empty => cases hGet
  | @serve log store prior now request ih =>
      have hChanged := changed_serve prior.reachable.sound now request
      rcases hChanged.get?_cases hGet with ⟨hOld, hKept⟩ | ⟨hWritten, -, hVersion, hNew⟩
      · obtain ⟨number, first, commit, since, hLast, hSame⟩ := ih hOld
        refine ⟨number, first, commit, since ++ [⟨request, now, store⟩], ⟨?_, hLast.handsOut, ?_⟩, hSame⟩
        · simp [hLast.split]
        · intro entry hEntry number' hHanded
          rcases List.mem_append.1 hEntry with hSince | hLater
          · exact hLast.alone entry hSince number' hHanded
          · rw [List.mem_singleton.1 hLater] at hHanded
            rcases hKept with hVersion | hElsewhere
            · exact absurd (hHanded.version.symm.trans hVersion) (Nat.ne_of_gt hHanded.fresh)
            · exact hElsewhere hHanded.written
      · exact ⟨store.version + 1, log, _, [], ⟨rfl, ⟨hWritten, Nat.lt_succ_self _, hVersion⟩,
          fun _ hEntry => absurd hEntry List.not_mem_nil⟩, hNew⟩
  | resetCalls _ ih => exact ih hGet

/-- No version is handed out in two places. -/
theorem Logged.place_unique (h : Logged log store) {first' since since' : List Entry}
    {commit commit' : Entry} {key' : Key} {number : Nat} (hLog : log = first ++ commit :: since)
    (hLog' : log = first' ++ commit' :: since') (hHanded : commit.HandsOut key number)
    (hHanded' : commit'.HandsOut key' number) :
    first = first' ∧ commit = commit' ∧ since = since' := by
  have hBefore : ∀ {first since commit commit' key key'}, log = first ++ commit :: since →
      commit' ∈ since → commit.HandsOut key number → ¬commit'.HandsOut key' number := by
    intro first since commit commit' key key' hSplit hMem hOne hTwo
    have hIncreasing := h.increasing
    rw [hSplit] at hIncreasing
    have hTail := (List.pairwise_append.1 hIncreasing).2.1
    exact absurd (List.rel_of_pairwise_cons hTail hMem hOne hTwo) (Nat.lt_irrefl _)
  rcases List.place_cases (hLog.symm.trans hLog') with hSame | ⟨gap, rfl⟩ | ⟨gap, rfl⟩
  · exact hSame
  · exact absurd hHanded' (hBefore hLog (by simp) hHanded)
  · exact absurd hHanded (hBefore hLog' (by simp) hHanded')

/-- A write that commits replaces a document that an earlier commit has left. -/
theorem Logged.exists_replaced (h : Logged log store) {write : Entry} {later : List Entry}
    {version : String} {number' : Nat} (hLog : log = first ++ write :: later)
    (hExpected : write.request.expected? = some version) (hWrite : write.HandsOut key number') :
    ∃ number before commit between, LastCommit first key number before commit between ∧
      version = toString number := by
  have hPrior : Logged first write.before := h.prior_of_eq hLog
  obtain ⟨stored, hGet, hVersion⟩ := hWrite.exists_expected hExpected
  obtain ⟨number, before, commit, between, hLast, hSame⟩ := hPrior.exists_lastCommit hGet
  exact ⟨number, before, commit, between, hLast, Option.some.inj (hVersion.symm.trans hSame)⟩

/-- A write that commits although it expects a version that was handed out before writes under the
key for which that was, and nothing was committed there since. -/
theorem Logged.current (h : Logged log store) {commit write : Entry} {later : List Entry}
    {number : Nat} {key' : Key} {number' : Nat}
    (hLog : log = first ++ commit :: between ++ write :: later)
    (hHanded : commit.HandsOut key number)
    (hExpected : write.request.expected? = some (toString number))
    (hWrite : write.HandsOut key' number') :
    key' = key ∧ ∀ entry ∈ between, ∀ number, ¬entry.HandsOut key number := by
  have hPrior : Logged (first ++ commit :: between) write.before := h.prior_of_eq hLog
  obtain ⟨found, _, _, _, hLast, hSame⟩ := h.exists_replaced hLog hExpected hWrite
  obtain rfl : number = found := toString_injective hSame
  obtain ⟨-, rfl, rfl⟩ := hPrior.place_unique rfl hLast.split hHanded hLast.handsOut
  obtain ⟨rfl, -⟩ := hHanded.unique hLast.handsOut
  exact ⟨rfl, hLast.alone⟩

/-- A write that commits is the last one that finds the version it expects. -/
theorem Logged.not_commits_again (h : Logged log store) {write again : Entry} {later : List Entry}
    {version : String} (hLog : log = first ++ write :: between ++ again :: later)
    (hExpected : write.request.expected? = some version)
    (hAgain : again.request.expected? = some version) (hWrite : write.Commits) :
    ¬again.Commits := by
  rintro ⟨key', number', hTwice⟩
  obtain ⟨key, number, hOnce⟩ := hWrite
  have hWriteAt : log = first ++ write :: (between ++ again :: later) := by simp [hLog]
  obtain ⟨found, before, commit, since, hLast, rfl⟩ := h.exists_replaced hWriteAt hExpected hOnce
  have hAgainAt : log = before ++ commit :: (since ++ write :: between) ++ again :: later := by
    simp [hLog, hLast.split]
  obtain ⟨rfl, hAlone⟩ := h.current hAgainAt hLast.handsOut hAgain hTwice
  exact hAlone write (by simp) number hOnce

/-- What versions are good for, in a log and in the store that it leads to. -/
structure Disciplined (log : List Entry) (store : Store) : Prop where
  /-- A version is greater than all that were handed out before, for whatever key. -/
  increasing : log.Pairwise fun first second => ∀ {key number key' number'},
    first.HandsOut key number → second.HandsOut key' number' → number < number'
  stamps : ∀ entry ∈ log, ∀ {key number}, entry.HandsOut key number → entry.Stamps key number
  /-- What hands out no version changes no document. -/
  kept : ∀ entry ∈ log, ¬entry.Commits → entry.after.objects = entry.before.objects
  /-- Each stored document has the version that was handed out last under its key. -/
  stored : ∀ {key document}, store.objects.get? key = some document →
    ∃ number first commit since, LastCommit log key number first commit since ∧
      document.version? = some (toString number)
  distinct : ∀ {key key' document document'}, store.objects.get? key = some document →
    store.objects.get? key' = some document' → document.version? = document'.version? → key = key'
  /-- A write that expects a version which an earlier commit got does something only if that was the
  last commit under the key of the write. -/
  current : ∀ {first commit between write later key number},
    log = first ++ commit :: between ++ write :: later → commit.HandsOut key number →
    write.request.expected? = some (toString number) → write.Commits →
    write.request.written? = some key ∧ ∀ entry ∈ between, ∀ number, ¬entry.HandsOut key number
  /-- Of the writes that expect one version at most one commits. -/
  once : log.Pairwise fun first second => ∀ {version}, first.request.expected? = some version →
    second.request.expected? = some version → first.Commits → ¬second.Commits
  /-- A write that expects a version from before its key was deleted and inserted anew does
  nothing. -/
  replaced : ∀ {first deletion middle insertion rest write later key resource commit origin number},
    log = first ++ deletion :: (middle ++ insertion :: (rest ++ write :: later)) →
    deletion.request = .delete key → insertion.request = .insert resource → resource.key = key →
    insertion.Commits → write.request.written? = some key → commit ∈ first →
    commit.HandsOut origin number → write.request.expected? = some (toString number) →
    ¬write.Commits

/-- Whatever is asked of a store that began empty, its versions are good for what they should be. -/
theorem Logged.disciplined (h : Logged log store) : Disciplined log store where
  increasing := h.increasing
  stamps _ hEntry _ _ := Entry.HandsOut.stamps (h.sound_of_mem hEntry)
  kept _ _ := Entry.objects_eq_of_not_commits
  stored := h.exists_lastCommit
  distinct := h.reachable.sound.distinct
  current hLog hHanded hExpected := by
    rintro ⟨key', number', hWrite⟩
    obtain ⟨rfl, hAlone⟩ := h.current hLog hHanded hExpected hWrite
    exact ⟨hWrite.written, hAlone⟩
  once := by
    refine List.pairwise_of_places fun _ _ _ _ _ hLog _ hFirst hSecond hCommits => ?_
    exact h.not_commits_again hLog hFirst hSecond hCommits
  replaced := by
    intro first deletion middle insertion rest write later key resource commit origin number hLog
      hDeletion hInsertion hKey hInserted hWritten hMem hHanded hExpected
    rintro ⟨key', number', hWrite⟩
    obtain ⟨before, since, rfl⟩ := List.append_of_mem hMem
    have hWriteAt : log = before ++ commit ::
        (since ++ deletion :: (middle ++ insertion :: rest)) ++ write :: later := by simp [hLog]
    obtain ⟨rfl, hAlone⟩ := h.current hWriteAt hHanded hExpected hWrite
    obtain ⟨key'', inserted, hInserted⟩ := hInserted
    have hSame : key'' = key' := by
      have hResource : insertion.request.written? = some key := by rw [hInsertion, ← hKey]; rfl
      exact Option.some.inj (hInserted.written.symm.trans
        (hResource.trans (hWritten.symm.trans hWrite.written)))
    exact hAlone insertion (by simp) inserted (hSame ▸ hInserted)

def firstborn : Resource :=
  { metadata := { name := "a", version := some "1" }, spec := .object .nil }

/-- A resource that was deleted and inserted anew is not updated by who has seen it before. -/
theorem disciplined_of_reinserted :
    ∃ log store, Logged log store ∧
      log.map Entry.request = [.insert firstborn, .delete firstborn.key, .insert firstborn,
        .update firstborn] ∧
      store.version = 3 ∧ store.calls.update = 1 ∧ Disciplined log store := by
  have hLog := (((Logged.empty.serve default (.insert firstborn)).serve default
    (.delete firstborn.key)).serve default (.insert firstborn)).serve default (.update firstborn)
  exact ⟨_, _, hLog, rfl, rfl, rfl, hLog.disciplined⟩

end Reconciliation.Store
