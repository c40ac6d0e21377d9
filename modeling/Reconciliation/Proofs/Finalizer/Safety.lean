import Reconciliation.Proofs.Edit.Effect
import Reconciliation.Proofs.Finalizer.Phases

/-!
The safety of finalizers. Invocations of engines that keep a finalizer take turns at a store, while
others ask for the deletion of the resource. The finalizer and the resource stay until an invocation
that found the resource marked has cleaned it up.
-/
namespace Reconciliation

namespace Store

variable {store store' : Store} {key : Key} {resource : Resource}

/-- What a request does to the document under a key. -/
inductive Touches (name : String) (key : Key) (now : Timestamp) (request : Request)
    (releases : Prop) : Option Json → Option Json → Prop where
  | absent : Touches name key now request releases none none
  | kept {document document' : Json} (hSame : document.SameMetadata document') :
    Touches name key now request releases (some document) (some document')
  | marked {document document' : Json} (hRequest : request = .delete key)
    (hUnmarked : document.isMarked = false) (hHolds : document.Holds name → document'.Holds name)
    (hMark : document'.metadata.get? "deletionTimestamp" =
      some (.string (Rfc3339.writeWithOffset now))) :
    Touches name key now request releases (some document) (some document')
  | released {document : Json} {after : Option Json} (hReleases : releases)
    (hMarked : document.isMarked = true)
    (hAfter : ∀ document', after = some document' →
      document'.isMarked = true ∧ document'.deletion = document.deletion) :
    Touches name key now request releases (some document) after

section

variable {name : String} {now : Timestamp} {request : Request} {releases : Prop}

theorem touches_of_objects (h : store'.objects = store.objects) (key : Key) :
    Touches name key now request releases (store.objects.get? key) (store'.objects.get? key) := by
  rw [h]
  cases store.objects.get? key with
  | none => exact .absent
  | some document => exact .kept (.refl document)

/-- A commit does not touch what is under other keys. -/
theorem touches_of_elsewhere {draft : Json} {written : Key}
    (h : store'.objects = (store.commit written draft).2.objects) (hKey : key ≠ written) :
    Touches name key now request releases (store.objects.get? key) (store'.objects.get? key) := by
  rw [h, get?_commit, if_neg hKey]
  cases store.objects.get? key with
  | none => exact .absent
  | some document => exact .kept (.refl document)

/-- A request that spares metadata keeps them. -/
theorem touches_of_spares (hStore : store.Reachable) (hSpares : request.SparesMetadata)
    (key : Key) : Touches name key now request releases (store.objects.get? key)
      ((request.serve now store).2.objects.get? key) := by
  cases hGet : store.objects.get? key with
  | some document =>
      obtain ⟨document', hGet', hSame⟩ := (spared_serve hStore.sound now hSpares key).stored hGet
        (hStore.isReleased_of_get? hGet)
      rw [hGet']
      exact .kept hSame
  | none =>
      suffices h : (request.serve now store).2.objects.get? key = none by
        rw [h]
        exact .absent
      cases store.serves now request with
      | kept hObjects _ _ => rw [hObjects, hGet]
      | @committed written draft hDraft hObjects _ _ =>
          obtain ⟨stored, hStored, -⟩ := hDraft.exists_sameMetadata hStore.sound hSpares
          rw [hObjects, get?_commit, if_neg, hGet]
          rintro rfl
          rw [hGet] at hStored
          cases hStored

/-- A request of others marks the resource, or does nothing to its metadata. -/
theorem touches_of_other (hStore : store.Reachable)
    (hHolds : ∀ document, store.objects.get? key = some document → document.isMarked = false →
      document.Holds name)
    (hOther : request.written? = some key → request = .delete key) :
    Touches name key now request releases (store.objects.get? key)
      ((request.serve now store).2.objects.get? key) := by
  cases store.serves now request with
  | kept hObjects _ _ => exact touches_of_objects hObjects key
  | @committed written draft hDraft hObjects _ _ =>
      by_cases hKey : key = written
      · subst hKey
        obtain rfl := hOther hDraft.written
        cases hDraft with
        | @delete _ stored hGet =>
            have hParts := (hStore.sound.stored hGet).1
            let after := (stored.mark now).withVersion (toString (store.version + 1))
            have hVersion : (stored.mark now).SameMetadata after :=
              .withVersion (hParts.mark now) _
            have hStays : after.isReleased = false →
                (Request.serve now (.delete key) store).2.objects.get? key = some after := by
              intro hHeld
              rw [hObjects, get?_commit, if_pos rfl, if_neg]
              rw [hHeld]
              exact Bool.false_ne_true
            rw [hGet]
            cases hContains : stored.metadata.contains "deletionTimestamp" with
            | true =>
                have hSame := (Json.sameMetadata_mark_of_contains hParts hContains now).trans hVersion
                rw [hStays (hSame.isReleased.trans (hStore.isReleased_of_get? hGet))]
                exact .kept hSame
            | false =>
                have hUnmarked := Json.isMarked_of_not_contains hContains
                have hHeld : stored.Holds name → after.Holds name :=
                  fun h => hVersion.holds (h.mark hParts now)
                rw [hStays (hHeld (hHolds stored hGet hUnmarked)).isReleased]
                refine .marked rfl hUnmarked hHeld ?_
                rw [hVersion "deletionTimestamp" (by decide)]
                exact Json.get?_mark_of_not_contains hParts hContains now
      · exact touches_of_elsewhere hObjects hKey

/-- A release keeps the mark. -/
theorem touches_of_release (hSound : store.Sound) (hReleases : releases) {cleaned found : Resource}
    (hKnown : store.Knows key found) (hTerminating : found.isTerminating = true)
    (hSame : cleaned.metadata = found.metadata)
    (hRequest : request = .update (cleaned.removeFinalizer name)) :
    Touches name key now request releases (store.objects.get? key)
      ((request.serve now store).2.objects.get? key) := by
  subst hRequest
  cases store.serves now (.update (cleaned.removeFinalizer name)) with
  | kept hObjects _ _ => exact touches_of_objects hObjects key
  | committed hDraft hObjects _ _ =>
      cases hDraft with
      | @update _ stored hFinds =>
          obtain ⟨number, -, hToken, hOnly⟩ := hKnown
          have hExpected : (cleaned.removeFinalizer name).metadata.version = some (toString number) := by
            rw [← hToken, ← hSame]
            rfl
          -- The release expects the version that was found, so it replaces what was found.
          obtain ⟨hKey, hRead⟩ := hOnly hFinds.get_eq (hFinds.version_eq _ hExpected)
          have hParts := (hSound.stored hFinds.get_eq).1
          rw [hObjects, get?_commit, if_pos hKey.symm, ← hKey, hFinds.get_eq]
          refine .released hReleases ((Json.isMarked_of_ofJson hParts hRead).trans hTerminating) ?_
          intro document' hAfter
          split at hAfter
          · cases hAfter
          · cases hAfter
            let freed := cleaned.removeFinalizer name
            have hWritten : (Json.object freed.toObject).SameMetadata
                (((Json.object freed.toObject).setStatus stored.status?).withVersion
                  (toString (store.version + 1))) :=
              (Json.SameMetadata.of_eq (freed.hasParts.metadata_setStatus _)).trans
                (.withVersion (freed.hasParts.setStatus _) _)
            have hDeletion : freed.metadata.deletion = found.metadata.deletion := by
              rw [← hSame]
              rfl
            have hSoundDeletion : freed.metadata.Sound := by
              rw [Metadata.Sound, hDeletion]
              exact (Json.readFrom_of_ofJson hParts hRead).sound
            refine ⟨?_, ?_⟩
            · rw [hWritten.isMarked, Resource.isMarked_toObject, Resource.isTerminating, hDeletion]
              exact hTerminating
            · rw [hWritten.deletion, Resource.deletion_toObject hSoundDeletion, hDeletion,
                Json.deletion_of_ofJson hParts hRead]

section

variable {before after : Option Json}

/-- What is not marked goes on to hold the finalizer. -/
theorem Touches.holds (h : Touches name key now request releases before after)
    (hHolds : ∀ document, before = some document → document.isMarked = false → document.Holds name) :
    ∀ document, after = some document → document.isMarked = false → document.Holds name := by
  intro document hAfter hUnmarked
  cases h with
  | absent => cases hAfter
  | kept hSame =>
      cases hAfter
      exact hSame.holds (hHolds _ rfl (hSame.isMarked.symm.trans hUnmarked))
  | marked _ hBefore hHeld _ =>
      cases hAfter
      exact hHeld (hHolds _ rfl hBefore)
  | released _ _ hMarked =>
      rw [(hMarked document hAfter).1] at hUnmarked
      cases hUnmarked

/-- A mark stays, and is read as the same instant. -/
theorem Touches.marked_of_marked {document document' : Json}
    (h : Touches name key now request releases (some document) (some document'))
    (hMarked : document.isMarked = true) :
    document'.isMarked = true ∧ document'.deletion = document.deletion := by
  cases h with
  | kept hSame => exact ⟨hSame.isMarked.trans hMarked, hSame.deletion⟩
  | marked _ hUnmarked _ _ =>
      rw [hMarked] at hUnmarked
      cases hUnmarked
  | released _ _ hAfter => exact hAfter document' rfl

/-- Only a release takes the finalizer off, or the resource away. -/
theorem Touches.releases_of_takes {document : Json}
    (h : Touches name key now request releases (some document) after)
    (hTakes : ∀ document', after = some document' → document.Holds name ∧ ¬document'.Holds name) :
    releases := by
  cases h with
  | kept hSame =>
      obtain ⟨hBefore, hAfter⟩ := hTakes _ rfl
      exact absurd (hSame.holds hBefore) hAfter
  | marked _ _ hHolds _ =>
      obtain ⟨hBefore, hAfter⟩ := hTakes _ rfl
      exact absurd (hHolds hBefore) hAfter
  | released hReleases _ _ => exact hReleases

/-- Only a request to delete the resource marks it, with the time of that. -/
theorem Touches.marked_of_unmarked {document document' : Json}
    (h : Touches name key now request releases (some document) (some document'))
    (hUnmarked : document.isMarked = false) (hMarked : document'.isMarked = true) :
    request = .delete key ∧ document'.metadata.get? "deletionTimestamp" =
      some (.string (Rfc3339.writeWithOffset now)) := by
  cases h with
  | kept hSame =>
      rw [hSame.isMarked, hUnmarked] at hMarked
      cases hMarked
  | marked hRequest _ _ hMark => exact ⟨hRequest, hMark⟩
  | released _ hBefore _ =>
      rw [hUnmarked] at hBefore
      cases hBefore

/-- What is gone stays away. -/
theorem Touches.absent_of_absent (h : Touches name key now request releases none after) :
    after = none := by
  cases h with
  | absent => rfl

end

end

end Store

structure Invocation (σ : Type) where
  engine : Engine σ
  now : Timestamp
  state : σ
  cleanup : Task σ Report Unit

namespace Invocation

variable {σ : Type}

def program (invocation : Invocation σ) (key : Key) :
    Program (Except (Stop WorkError) Requeue × σ) :=
  invocation.engine.run invocation.now key invocation.state

def Cleaning (invocation : Invocation σ) (key : Key) (exchanges : List Exchange) (found : Resource)
    (left : Program (Except (Stop Report) Unit × Scene σ)) : Prop :=
  invocation.engine.Cleaning invocation.cleanup key invocation.state exchanges found left

def Phase (invocation : Invocation σ) (name : String) (key : Key) (knows : Resource → Prop)
    (exchanges : List Exchange) (rest : Program (Except (Stop WorkError) Requeue × σ)) : Prop :=
  invocation.engine.Phase invocation.now name invocation.cleanup key invocation.state knows exchanges
    rest

end Invocation

namespace Program

variable {σ ι : Type}

/-- A turn takes the finalizer off, or the resource away. -/
def Turn.Takes (turn : Turn ι) (key : Key) (name : String) : Prop :=
  ∃ document, turn.before.objects.get? key = some document ∧
    ∀ document', turn.after.objects.get? key = some document' →
      document.Holds name ∧ ¬document'.Holds name

/-- What a turn has fetched was in the store. -/
theorem Turn.get_eq_ok {turn : Turn ι} {key : Key} {found : Resource}
    (h : (⟨turn.request, turn.answer⟩ : Exchange) = ⟨.get key, .ok found⟩) :
    (turn.before.get key).1 = .ok found := by
  obtain ⟨⟨request, now, before⟩, maker⟩ := turn
  obtain ⟨hRequest, hAnswer⟩ := Exchange.mk.inj h
  dsimp only at hRequest
  subst hRequest
  exact eq_of_heq hAnswer

variable [DecidableEq ι]

/-- A turn in which an invocation takes the finalizer off a resource that it has found to be deleted
and has cleaned up. -/
def Turn.Releases (invocations : ι → Invocation σ) (name : String) (key : Key)
    (earlier : List (Turn ι)) (turn : Turn ι) : Prop :=
  ∃ i found cleaned, turn.maker = some i ∧
    (invocations i).Cleaning key (exchangesOf i earlier) found (.done (.ok (), cleaned)) ∧
    turn.request = .update (cleaned.resource.removeFinalizer name)

/-- What is left to others: everything but writing under the key, and asking for its deletion. -/
def Deletes (key : Key) (request : Request) : Prop :=
  request.written? = some key → request = .delete key

/-- What holds of a store while invocations take turns at it. -/
structure Guarded (invocations : ι → Invocation σ) (name : String) (key : Key)
    (history : List (Turn ι)) (world : World ι (Except (Stop WorkError) Requeue × σ)) : Prop where
  reachable : world.store.Reachable
  holds : ∀ document, world.store.objects.get? key = some document → document.isMarked = false →
    document.Holds name
  phases : ∀ i, (invocations i).Phase name key (world.store.Knows key) (exchangesOf i history)
    (world.left i)

section

variable {invocations : ι → Invocation σ} {name : String} {key : Key} {history : List (Turn ι)}
  {world : World ι (Except (Stop WorkError) Requeue × σ)} {turn : Turn ι}

def Turn.Touches (invocations : ι → Invocation σ) (name : String) (key : Key)
    (earlier : List (Turn ι)) (turn : Turn ι) : Prop :=
  Store.Touches name key turn.now turn.request (turn.Releases invocations name key earlier)
    (turn.before.objects.get? key) (turn.after.objects.get? key)

/-- What others may do takes neither the finalizer nor the resource away. -/
theorem Guarded.touches_other (h : Guarded invocations name key history world)
    (hBefore : turn.before = world.store) (hDeletes : Deletes key turn.request) :
    turn.Touches invocations name key history := by
  have hStore : turn.before.Reachable := hBefore ▸ h.reachable
  exact Store.touches_of_other hStore (hBefore ▸ h.holds) hDeletes

/-- An invocation does so only when it releases what it has cleaned up. -/
theorem Guarded.touches_own (h : Guarded invocations name key history world) {i : ι}
    (hGuards : (invocations i).engine.Guards name (invocations i).cleanup)
    {next : turn.request.Answer → Program (Except (Stop WorkError) Requeue × σ)}
    (hMaker : turn.maker = some i) (hBefore : turn.before = world.store)
    (hLeft : world.left i = .call turn.request next) :
    turn.Touches invocations name key history ∧
      (invocations i).Phase name key (world.store.Knows key)
        (exchangesOf i history ++ [⟨turn.request, turn.answer⟩]) (next turn.answer) := by
  have hStore : turn.before.Reachable := hBefore ▸ h.reachable
  have hFits : turn.request.Fits turn.answer :=
    Store.fits_serve hStore.sound hStore.keyed turn.now turn.request
  obtain ⟨hRequest, hPhase⟩ := (h.phases i).next hGuards hLeft hFits fun found hSame => by
    have hGet := Turn.get_eq_ok hSame
    obtain ⟨⟨document, hStored, hRead⟩, -⟩ := Store.of_get_eq_ok (Prod.ext hGet rfl)
    have hParts := (hStore.sound.stored hStored).1
    refine ⟨hBefore ▸ hStore.sound.knows_of_get hGet, fun hLives => ?_⟩
    refine (Json.holds_iff_of_ofJson hParts hRead).1 (h.holds document (hBefore ▸ hStored) ?_)
    rw [Json.isMarked_of_ofJson hParts hRead, hLives]
  refine ⟨?_, hPhase⟩
  rcases hRequest with hSpares | ⟨found, cleaned, hKnown, hReleases⟩
  · exact Store.touches_of_spares hStore hSpares key
  · have hMetadata := hReleases.metadata_eq hGuards.cleanup
    obtain ⟨_, _, -, -, hTerminating, -⟩ := hReleases.cleaning
    have hTakes : turn.Releases invocations name key history :=
      ⟨i, found, cleaned, hMaker, hReleases.cleaning, hReleases.request⟩
    exact Store.touches_of_release hStore.sound hTakes (hBefore ▸ hKnown) hTerminating hMetadata
      hReleases.request

/-- A turn that keeps a store guarded. -/
theorem Guarded.after (h : Guarded invocations name key history world)
    (hBefore : turn.before = world.store) (hTouches : turn.Touches invocations name key history)
    {left : ι → Program (Except (Stop WorkError) Requeue × σ)}
    (hPhases : ∀ i, (invocations i).Phase name key (world.store.Knows key)
      (exchangesOf i (history ++ [turn])) (left i)) :
    Guarded invocations name key (history ++ [turn]) ⟨turn.after, left⟩ := by
  have hStore : turn.before.Reachable := hBefore ▸ h.reachable
  have hLater := (Store.changed_serve hStore.sound turn.now turn.request).later
  exact {
    reachable := hStore.serve turn.now turn.request
    holds := hTouches.holds (hBefore ▸ h.holds)
    phases i := (hPhases i).mono fun _ hKnown => Store.Knows.later (hBefore ▸ hKnown) hLater }

variable {start : World ι (Except (Stop WorkError) Requeue × σ)}

section

variable (h : Turns (Deletes key) start history world)
  (hStart : Guarded invocations name key [] start)
  (hGuards : ∀ i, (invocations i).engine.Guards name (invocations i).cleanup)
include h hStart hGuards

/-- Turns keep a store guarded. -/
theorem Turns.guarded : Guarded invocations name key history world := by
  induction h with
  | start => exact hStart
  | other prior turn hMaker hBefore hPermits ih =>
      refine ih.after hBefore (ih.touches_other hBefore hPermits) fun i => ?_
      rw [exchangesOf_append_of_ne (by rw [hMaker]; exact nofun)]
      exact ih.phases i
  | @own history world prior turn i next hMaker hBefore hLeft ih =>
      obtain ⟨hTouches, hPhase⟩ := ih.touches_own (hGuards i) hMaker hBefore hLeft
      refine ih.after hBefore hTouches fun j => ?_
      by_cases hSame : j = i
      · subst hSame
        rw [exchangesOf_append_of_eq hMaker, if_pos rfl]
        exact hPhase
      · rw [exchangesOf_append_of_ne (by rw [hMaker]; exact fun h => hSame (Option.some.inj h).symm),
          if_neg hSame]
        exact ih.phases j

/-- What each turn does to the resource. -/
theorem Turns.touches {first rest : List (Turn ι)} (hHistory : history = first ++ turn :: rest) :
    turn.Touches invocations name key first := by
  obtain ⟨earlier, hFirst, hBefore, ⟨-, hPermits⟩ | ⟨i, next, hMaker, hLeft⟩⟩ :=
    h.exists_world hHistory
  · exact (hFirst.guarded hStart hGuards).touches_other hBefore hPermits
  · exact ((hFirst.guarded hStart hGuards).touches_own (hGuards i) hMaker hBefore hLeft).1

/-- A mark that was on the document when a turn was made is still on it. -/
theorem Turns.marked {document document' : Json} (hTurn : turn ∈ history)
    (hStored : turn.before.objects.get? key = some document) (hMarked : document.isMarked = true)
    (hStored' : world.store.objects.get? key = some document') :
    document'.isMarked = true ∧ document'.deletion = document.deletion := by
  refine h.of_keeps (fun history store => turn ∈ history → ∀ document',
    store.objects.get? key = some document' →
      document'.isMarked = true ∧ document'.deletion = document.deletion) nofun ?_
    hTurn document' hStored'
  intro history world last hTurns hEarlier hTurn document' hAfter
  have hTouches := hTurns.touches hStart hGuards rfl
  rw [Turn.Touches, hAfter] at hTouches
  cases hCame : last.before.objects.get? key with
  | none =>
      rw [hCame] at hTouches
      cases hTouches.absent_of_absent
  | some came =>
      rw [hCame] at hTouches
      -- What the last turn came to was marked, if it is not the turn in question itself.
      obtain ⟨hMarks, hReads⟩ : came.isMarked = true ∧ came.deletion = document.deletion := by
        rcases List.mem_append.1 hTurn with hOld | hLast
        · exact hEarlier hOld came hCame
        · obtain rfl := List.mem_singleton.1 hLast
          cases hStored.symm.trans hCame
          exact ⟨hMarked, rfl⟩
      obtain ⟨hStays, hSame⟩ := hTouches.marked_of_marked hMarks
      exact ⟨hStays, hSame.trans hReads⟩

/-- An invocation that has found the resource to be deleted makes its requests of marked documents.
-/
theorem Turns.marked_of_found {i : ι} {found : Resource} {since : List Exchange}
    {asking : Turn ι} {document : Json}
    (hExchanges : exchangesOf i history = ⟨.get key, .ok found⟩ :: since)
    (hTerminating : found.isTerminating = true) (hAsking : asking ∈ history)
    (hMaker : asking.maker = some i) (hStored : asking.before.objects.get? key = some document) :
    document.isMarked = true := by
  obtain ⟨past, fetching, later, rfl, -, hFetched, hPast⟩ := exists_first_of_exchangesOf hExchanges
  obtain ⟨earlier, hEarlier, hStore, -⟩ := h.exists_world rfl
  obtain ⟨⟨fetched, hGet, hRead⟩, -⟩ :=
    Store.of_get_eq_ok (Prod.ext (Turn.get_eq_ok hFetched) rfl)
  have hReachable : fetching.before.Reachable :=
    hStore ▸ (hEarlier.guarded hStart hGuards).reachable
  have hMarked : fetched.isMarked = true := by
    rw [Json.isMarked_of_ofJson (hReachable.sound.stored hGet).1 hRead, hTerminating]
  rcases List.mem_append.1 hAsking with hOld | hRest
  · exact absurd hMaker (hPast asking hOld)
  · cases hRest with
    | head =>
        cases hStored.symm.trans hGet
        exact hMarked
    | tail _ hLater =>
        obtain ⟨between, rest, rfl⟩ := List.append_of_mem hLater
        have hPlace : past ++ fetching :: (between ++ asking :: rest) =
            (past ++ fetching :: between) ++ asking :: rest := by
          rw [List.append_assoc, List.cons_append]
        obtain ⟨world', hWorld, hStore', -⟩ := h.exists_world hPlace
        exact (hWorld.marked hStart hGuards (by simp) hGet hMarked (hStore' ▸ hStored)).1

end

/-- A document that no turn takes the finalizer off holds it. -/
theorem Turns.held (h : Turns (Deletes key) start history world) {document : Json}
    (hStored : start.store.objects.get? key = some document) (hHolds : document.Holds name)
    (hKept : ∀ turn ∈ history, ¬turn.Takes key name) :
    ∃ document', world.store.objects.get? key = some document' ∧ document'.Holds name := by
  refine h.of_keeps (fun history store => (∀ turn ∈ history, ¬turn.Takes key name) →
    ∃ document', store.objects.get? key = some document' ∧ document'.Holds name)
    (fun _ => ⟨document, hStored, hHolds⟩) ?_ hKept
  intro history world turn _ hEarlier hKept
  obtain ⟨before, hBefore, hHeld⟩ := hEarlier fun turn hTurn => hKept turn (by simp [hTurn])
  by_contra hLost
  exact hKept turn (by simp) ⟨before, hBefore, fun after hAfter =>
    ⟨hHeld, fun hStays => hLost ⟨after, hAfter, hStays⟩⟩⟩

/-- What is safe about a resource that holds a finalizer, while invocations that keep the finalizer
take turns at the store. -/
structure Safeguarded (invocations : ι → Invocation σ) (name : String) (key : Key)
    (history : List (Turn ι)) (store : Store) : Prop where
  /-- A mark stays for as long as there is a document, and is read as the same instant. -/
  marked : ∀ turn ∈ history, ∀ document document', turn.before.objects.get? key = some document →
    document.isMarked = true → store.objects.get? key = some document' →
    document'.isMarked = true ∧ document'.deletion = document.deletion
  /-- Nothing but a request to delete the resource marks it, with the time of that. -/
  dated : ∀ turn ∈ history, ∀ document document', turn.before.objects.get? key = some document →
    document.isMarked = false → turn.after.objects.get? key = some document' →
    document'.isMarked = true → turn.request = .delete key ∧
    (Rfc3339.secondsRange.1 ≤ turn.now.seconds ∧ turn.now.seconds ≤ Rfc3339.secondsRange.2 →
      document'.deletion = .ok (some turn.now))
  /-- Until a turn takes the finalizer off, the document is there and holds it. -/
  held : (∀ turn ∈ history, ¬turn.Takes key name) →
    ∃ document, store.objects.get? key = some document ∧ document.Holds name
  /-- A turn that does so is the release of an invocation whose cleanup has ended well on a resource
  that was found to be deleted. -/
  taken : ∀ first turn rest, history = first ++ turn :: rest → turn.Takes key name →
    turn.Releases invocations name key first
  /-- An invocation whose cleanup has failed makes no such turn, -/
  failed : ∀ i done more found reason scene, exchangesOf i history = done ++ more →
    (invocations i).Cleaning key done found (.done (.error reason, scene)) →
    ∀ turn ∈ history, turn.maker = some i → ¬turn.Takes key name
  /-- and neither does one that has asked for anything before the document was marked. -/
  early : ∀ i, ∀ asking ∈ history, asking.maker = some i → ∀ document,
    asking.before.objects.get? key = some document → document.isMarked = false →
    ∀ turn ∈ history, turn.maker = some i → ¬turn.Takes key name

/-- A release is made by an invocation whose cleanup has ended well. -/
theorem Turn.Releases.exists_cleaned {first : List (Turn ι)} {i : ι}
    (h : turn.Releases invocations name key first) (hMaker : turn.maker = some i) :
    ∃ found cleaned,
      (invocations i).Cleaning key (exchangesOf i first) found (.done (.ok (), cleaned)) := by
  obtain ⟨j, found, cleaned, hOther, hCleaning, -⟩ := h
  cases hMaker.symm.trans hOther
  exact ⟨found, cleaned, hCleaning⟩

/-- A resource that holds a finalizer is safe while invocations that keep it take turns at the
store, and others write nothing but ask for its deletion. -/
theorem Turns.safeguarded (h : Turns (Deletes key) start history world) {document : Json}
    (hReachable : start.store.Reachable)
    (hStored : start.store.objects.get? key = some document) (hHolds : document.Holds name)
    (hGuards : ∀ i, (invocations i).engine.Guards name (invocations i).cleanup)
    (hLeft : ∀ i, start.left i = (invocations i).program key) :
    Safeguarded invocations name key history world.store := by
  have hStart : Guarded invocations name key [] start := by
    refine ⟨hReachable, fun document' hGet _ => ?_, fun i => ?_⟩
    · cases hStored.symm.trans hGet
      exact hHolds
    · rw [hLeft i]
      exact .fetching
  have hTaken : ∀ first turn rest, history = first ++ turn :: rest → turn.Takes key name →
      turn.Releases invocations name key first := by
    rintro first turn rest hHistory ⟨before, hBefore, hTakes⟩
    have hTouches := h.touches hStart hGuards hHistory
    rw [Turn.Touches, hBefore] at hTouches
    exact hTouches.releases_of_takes hTakes
  exact {
    marked := fun turn hTurn _ _ => h.marked hStart hGuards hTurn
    dated := by
      intro turn hTurn before after hBefore hUnmarked hAfter hMarked
      obtain ⟨first, rest, hHistory⟩ := List.append_of_mem hTurn
      have hTouches := h.touches hStart hGuards hHistory
      rw [Turn.Touches, hBefore, hAfter] at hTouches
      obtain ⟨hRequest, hMark⟩ := hTouches.marked_of_unmarked hUnmarked hMarked
      exact ⟨hRequest, fun hRange =>
        Json.deletion_of_get?_eq hMark (Rfc3339.read_writeWithOffset hRange)⟩
    held := h.held hStored hHolds
    taken := hTaken
    failed := by
      intro i done more found reason scene hExchanges hFailed turn hTurn hMaker hTakes
      obtain ⟨first, rest, rfl⟩ := List.append_of_mem hTurn
      obtain ⟨_, _, hCleaning⟩ := (hTaken first turn rest rfl hTakes).exists_cleaned hMaker
      obtain ⟨state', since, rfl, hAsks, -, hReaches⟩ := hFailed
      obtain ⟨state'', since', hFirst, hAsks', -, hReaches'⟩ := hCleaning
      rw [exchangesOf_append, hFirst] at hExchanges
      obtain ⟨hHead, hTail⟩ := List.cons.inj hExchanges
      cases hHead
      cases hAsks.symm.trans hAsks'
      cases (hReaches'.ended_unique hReaches hTail).2
    early := by
      intro i asking hAsking hAsker before hBefore hUnmarked turn hTurn hMaker hTakes
      obtain ⟨first, rest, hHistory⟩ := List.append_of_mem hTurn
      obtain ⟨found, _, _, since, hFirst, -, hTerminating, -⟩ :=
        (hTaken first turn rest hHistory hTakes).exists_cleaned hMaker
      have hExchanges : exchangesOf i history =
          ⟨.get key, .ok found⟩ :: (since ++ exchangesOf i (turn :: rest)) := by
        rw [hHistory, exchangesOf_append, hFirst, List.cons_append]
      have hMarked := h.marked_of_found hStart hGuards hExchanges hTerminating hAsking hAsker hBefore
      rw [hUnmarked] at hMarked
      cases hMarked }

end

def heldResource : Resource := Edit.plainResource.addFinalizer "f"

/-- An invocation that changes the specification, and cleans up by counting. -/
def keeper : Invocation Nat where
  engine := {
    steps := [
      .ofOptions "A" (Task.modifyResource fun resource => { resource with spec := .bool true }) {}]
    finalizer := some { name := "f", cleanup := some (Task.modifyState fun _ count => count + 1) } }
  now := default
  state := 0
  cleanup := Task.modifyState fun _ count => count + 1

/-- A store with the resource in it, and two invocations that have not begun. -/
def twoKeepers : World Bool (Except (Stop WorkError) Requeue × Nat) where
  store := (Store.insert heldResource {}).2
  left _ := keeper.program heldResource.key

theorem guards_keeper : keeper.engine.Guards "f" keeper.cleanup where
  finalizer := rfl
  cleanup _ := .done rfl
  steps := by
    intro step hStep
    obtain rfl := List.mem_singleton.1 hStep
    exact ⟨fun _ => .done rfl, nofun, nofun⟩

/-- Of two invocations, the one that finds the resource to be deleted cleans it up and takes it
away. -/
theorem safeguarded_of_twoKeepers :
    ∃ (history : List (Turn Bool)) (world : World Bool (Except (Stop WorkError) Requeue × Nat)),
      Turns (Deletes heldResource.key) twoKeepers history world ∧
      history.map (·.maker) = [some false, none, some true, some true] ∧
      world.store.contains heldResource.key = false ∧
      Safeguarded (fun _ => keeper) "f" heldResource.key history world.store := by
  have hFetched : Turns (Deletes heldResource.key) twoKeepers _ _ :=
    Turns.start.own ⟨⟨.get heldResource.key, default, _⟩, some false⟩ rfl rfl rfl
  have hDeleted := hFetched.other ⟨⟨.delete heldResource.key, default, _⟩, none⟩ rfl rfl fun _ => rfl
  have hFound := hDeleted.own ⟨⟨.get heldResource.key, default, _⟩, some true⟩ rfl rfl rfl
  have hReleased := hFound.own ⟨⟨.update _, default, _⟩, some true⟩ rfl rfl rfl
  have hStored : twoKeepers.store.objects.get? heldResource.key = some _ := rfl
  exact ⟨_, _, hReleased, rfl, by decide +kernel, hReleased.safeguarded
    (.serve .empty default (.insert heldResource)) hStored
    ⟨["f"], rfl, by simp⟩ (fun _ => guards_keeper) (fun _ => rfl)⟩

end Program

end Reconciliation
