import EntServicesInfra.Lib.Ledger
import EntServicesInfra.WebBridge.Bridge
import Mathlib.Algebra.Group.Nat.Defs

/-!
# WebBridge: the requests that wait for an answer

The ids under which requests are forwarded are opened when a request is forwarded and closed when a
message answers it: a response of the service or the error of `Cleanup`.  `_pendingRequests` is the
table of the ids that are open.

* `Answered`            every answer goes to the requester under the requester's id, no request is
                        answered twice, those that are not answered are pending, and an answer to
                        nothing changes nothing;
* `Inv.answer`          closing one entry, by a response or by a time-out;
* `forwardedBy`         the request that a call of `Invoke` forwards, if it answers nothing itself;
* `requests_answered`   all this holds along every run with fewer than `2 ^ 32` forwarded requests.
-/

namespace WebBridge
open Std (TreeMap)
open Runs Ledger

/-! ## answers -/

/-- the request that a message submitted with this cause answers -/
def Cause.answers : Cause → Option UInt32
  | .response newId | .timedOut newId => some newId
  | .request _ | .event => none

namespace Bridge

/-- the ids under which requests were forwarded -/
def newIds (s : Bridge) : List UInt32 := s.forwarded.map (·.newId)

/-- the requests that were answered, one entry for each answer -/
def answered (s : Bridge) : List UInt32 := s.submitted.filterMap (·.cause.answers)

end Bridge

/-- If it is an answer, it goes where the request came from, under the id the request had there; a
time-out is the error `ERROR_TIMEDOUT`. -/
structure Addressed (forwarded : List Forwarded) (sub : Submission) : Prop where
  requester : ∀ newId, sub.cause.answers = some newId → ∃ f ∈ forwarded,
    f.newId = newId ∧ sub.channelId = f.channelId ∧ sub.message.id = some f.id
  error : ∀ newId, sub.cause = .timedOut newId →
    sub.message.error.map (·.code) = some .ERROR_TIMEDOUT

/-- **At most one answer, and to the requester.** -/
structure Answered (T : Thunder) (s : Bridge) : Prop where
  newIds : s.newIds.Nodup
  addressed : ∀ sub ∈ s.submitted, Addressed s.forwarded sub
  once : s.answered.Nodup
  pending : ∀ newId, newId ∈ s.pendingRequests ↔ newId ∈ s.newIds ∧ newId ∉ s.answered
  dropped : ∀ (m : Message) (id : UInt32), m.id = some id → id ∉ s.pendingRequests →
    inbound T s m = s

/-- A request that is forwarded comes from a channel, and the ids have not run out. -/
def Fresh (T : Thunder) (s : Bridge) : Label → Prop
  | .invoke channelId message _ =>
    destination T.toDesignators s.supportedVersions s.callsign message.designator = .STATE_CUSTOM →
      channelId ≠ 0 ∧ s.forwarded.length + 1 < 2 ^ 32
  | _ => True

instance (T : Thunder) (s : Bridge) : ∀ l, Decidable (Fresh T s l)
  | .invoke channelId message _ =>
    inferInstanceAs (Decidable (destination T.toDesignators s.supportedVersions s.callsign
      message.designator = .STATE_CUSTOM → channelId ≠ 0 ∧ s.forwarded.length + 1 < 2 ^ 32))
  | .attach .. | .detach .. | .inbound .. | .cleanup .. => isTrue trivial

/-! ## the invariant -/

structure Inv (s : Bridge) : Prop where
  bound : s.forwarded.length < 2 ^ 32
  sequenceId : s.sequenceId = UInt32.ofNat (s.forwarded.length + 1)
  /-- the ids count from 2 -/
  counted : ∀ f ∈ s.forwarded, ∃ k, k < s.forwarded.length ∧ f.newId = UInt32.ofNat (k + 2)
  entries : ∀ (newId : UInt32) (request : Request), s.pendingRequests[newId]? = some request →
    request.channelId ≠ 0 ∧ ⟨newId, request.channelId, request.sequenceId⟩ ∈ s.forwarded
  addressed : ∀ sub ∈ s.submitted, Addressed s.forwarded sub
  ledger : Balanced s.newIds s.answered (· ∈ s.pendingRequests)

theorem Addressed.mono {forwarded forwarded' : List Forwarded} {sub : Submission}
    (h : Addressed forwarded sub) (hsub : forwarded ⊆ forwarded') : Addressed forwarded' sub where
  requester newId hcause := by
    obtain ⟨f, hf, haddr⟩ := h.requester newId hcause
    exact ⟨f, hsub hf, haddr⟩
  error := h.error

theorem addressed_of_none {forwarded : List Forwarded} {sub : Submission}
    (h : sub.cause.answers = none) : Addressed forwarded sub where
  requester newId hcause := by
    rw [h] at hcause
    cases hcause
  error newId hcause := by
    rw [hcause] at h
    cases h

/-- the ids before the bound differ -/
theorem newId_injective {k n : Nat} (hk : k < n) (hn : n < 2 ^ 32) :
    UInt32.ofNat (k + 2) ≠ UInt32.ofNat (n + 2) := by
  intro h
  have hmod : (k + 2) % 2 ^ 32 = (n + 2) % 2 ^ 32 := by
    rw [← UInt32.toNat_ofNat', ← UInt32.toNat_ofNat', h]
  omega

namespace Inv

variable {T : Thunder} {s s' : Bridge}

theorem initialized (callsign : String) (timeout : Option UInt16) :
    Inv (initialized T callsign timeout) where
  bound := by
    show 0 < 2 ^ 32
    omega
  sequenceId := rfl
  counted _ h := absurd h List.not_mem_nil
  entries newId request h := by
    have hnone : (∅ : PendingMap)[newId]? = some request := h
    simp at hnone
  addressed _ h := absurd h List.not_mem_nil
  ledger := balanced_nil.congr fun k => by
    show k ∈ (∅ : PendingMap) ↔ False
    exact iff_of_false TreeMap.not_mem_emptyc not_false

theorem answered (h : Inv s) : Answered T s where
  newIds := h.ledger.opened_nodup
  addressed := h.addressed
  once := h.ledger.closed_nodup
  pending := h.ledger.isOpen_iff
  dropped m id hid hpending := by
    apply inbound_dropped hid
    rwa [TreeMap.mem_iff_isSome_getElem?, Option.not_isSome_iff_eq_none] at hpending

/-- A step that touches neither the pending requests nor what was submitted. -/
theorem frame (h : Inv s) (hforwarded : s'.forwarded = s.forwarded)
    (hsequence : s'.sequenceId = s.sequenceId) (hpending : s'.pendingRequests = s.pendingRequests)
    (hsubmitted : s'.submitted = s.submitted) : Inv s' where
  bound := by rw [hforwarded]; exact h.bound
  sequenceId := by rw [hsequence, hforwarded]; exact h.sequenceId
  counted := by rw [hforwarded]; exact h.counted
  entries := by rw [hpending, hforwarded]; exact h.entries
  addressed := by rw [hsubmitted, hforwarded]; exact h.addressed
  ledger := by
    have hnew : s'.newIds = s.newIds := by rw [Bridge.newIds, hforwarded, Bridge.newIds]
    have hans : s'.answered = s.answered := by rw [Bridge.answered, hsubmitted, Bridge.answered]
    rw [hnew, hans, hpending]
    exact h.ledger

/-- **One answer.**  The entry of a pending request is erased and a message submitted for it. -/
theorem answer (h : Inv s) {newId : UInt32} {request : Request} {m : Message} {cause : Cause}
    (hfind : s.pendingRequests[newId]? = some request) (hcause : cause.answers = some newId)
    (hid : m.id = some request.sequenceId)
    (herror : ∀ k, cause = .timedOut k → m.error.map (·.code) = some .ERROR_TIMEDOUT) :
    Inv { s.submit request.channelId m cause with
      pendingRequests := s.pendingRequests.erase newId } where
  bound := h.bound
  sequenceId := h.sequenceId
  counted := h.counted
  entries newId' request' hfind' := by
    rw [TreeMap.getElem?_erase] at hfind'
    split at hfind'
    · cases hfind'
    · exact h.entries newId' request' hfind'
  addressed := by
    refine List.forall_mem_cons.mpr ⟨⟨?_, herror⟩, h.addressed⟩
    intro k hk
    obtain rfl := Option.some.inj (hcause.symm.trans hk)
    exact ⟨_, (h.entries newId request hfind).2, rfl, rfl, hid⟩
  ledger := by
    have hmem : newId ∈ s.pendingRequests := by
      rw [TreeMap.mem_iff_isSome_getElem?, hfind]
      rfl
    have hans : Bridge.answered { s.submit request.channelId m cause with
        pendingRequests := s.pendingRequests.erase newId } = newId :: s.answered :=
      List.filterMap_cons_some hcause
    rw [hans]
    refine h.ledger.closes hmem fun k => ?_
    show k ∈ s.pendingRequests.erase newId ↔ _
    rw [TreeMap.mem_erase, ne_eq, Std.compare_eq_iff_eq, ne_comm]

/-- Events answer nothing. -/
theorem events (h : Inv s) {events : List Submission}
    (hevents : ∀ sub ∈ events, sub.cause = .event) :
    Inv { s with submitted := events ++ s.submitted } where
  bound := h.bound
  sequenceId := h.sequenceId
  counted := h.counted
  entries := h.entries
  addressed := by
    refine List.forall_mem_append.mpr ⟨fun sub hsub => addressed_of_none ?_, h.addressed⟩
    rw [hevents sub hsub]
    rfl
  ledger := by
    have hnil : events.filterMap (·.cause.answers) = [] :=
      List.filterMap_eq_nil_iff.mpr fun sub hsub => by rw [hevents sub hsub]; rfl
    have hans : Bridge.answered { s with submitted := events ++ s.submitted } = s.answered := by
      rw [Bridge.answered, List.filterMap_append, hnil]
      rfl
    rw [hans]
    exact h.ledger

/-- **A new request.**  Its id is the next one, which no request before it had. -/
theorem forward (h : Inv s) {channelId : UInt32} {message m : Message} {now : Nat}
    (hchannel : channelId ≠ 0) (hbound : s.forwarded.length + 1 < 2 ^ 32) :
    Inv (forward T s channelId message m now) := by
  have hnewId : s.sequenceId + 1 = UInt32.ofNat (s.forwarded.length + 2) := by
    rw [h.sequenceId, UInt32.ofNat_add _ 2, UInt32.ofNat_add _ 1, UInt32.add_assoc]
    rfl
  have hfresh : s.sequenceId + 1 ∉ s.newIds := by
    intro hmem
    obtain ⟨f, hf, heq⟩ := List.mem_map.mp hmem
    obtain ⟨k, hk, hcount⟩ := h.counted f hf
    exact newId_injective hk h.bound (by rw [← hcount, heq, hnewId])
  exact {
    bound := hbound
    sequenceId := hnewId
    counted := by
      refine List.forall_mem_cons.mpr ⟨⟨s.forwarded.length, Nat.lt_succ_self _, hnewId⟩, ?_⟩
      intro f hf
      obtain ⟨k, hk, hcount⟩ := h.counted f hf
      exact ⟨k, Nat.lt_succ_of_lt hk, hcount⟩
    entries := by
      intro newId request hfind
      replace hfind := TreeMap.getElem?_insertIfNew.symm.trans hfind
      split at hfind
      · rename_i heq
        obtain rfl := Std.compare_eq_iff_eq.mp heq.1
        obtain rfl := Option.some.inj hfind
        exact ⟨hchannel, List.mem_cons_self⟩
      · obtain ⟨hne, hmem⟩ := h.entries newId request hfind
        exact ⟨hne, List.mem_cons_of_mem _ hmem⟩
    addressed := by
      refine List.forall_mem_cons.mpr ⟨addressed_of_none rfl, fun sub hsub => ?_⟩
      exact (h.addressed sub hsub).mono (List.subset_cons_self _ _)
    ledger := by
      refine h.ledger.opens hfresh fun k => ?_
      show k ∈ s.pendingRequests.insertIfNew _ _ ↔ _
      rw [TreeMap.mem_insertIfNew, Std.compare_eq_iff_eq, eq_comm] }

/-! ## the loop of `Cleanup` -/

theorem expire (h : Inv s) (now : Nat) (nextSlot : Option Nat) {newId : UInt32} {request : Request}
    (hfind : s.pendingRequests[newId]? = some request) :
    Inv (expire now (s, nextSlot) (newId, request)).1 := by
  unfold WebBridge.expire
  by_cases hdue : now ≥ request.issued
  · simp only [if_pos hdue]
    exact h.answer hfind rfl rfl fun _ _ => rfl
  · simp only [if_neg hdue]
    exact h

/-- the entries that the loop has not come to stay in the map -/
theorem expire_find {now : Nat} {nextSlot : Option Nat} {entry : UInt32 × Request} {newId : UInt32}
    (hne : entry.1 ≠ newId) :
    (WebBridge.expire now (s, nextSlot) entry).1.pendingRequests[newId]? =
      s.pendingRequests[newId]? := by
  obtain ⟨id, request⟩ := entry
  unfold WebBridge.expire
  by_cases hdue : now ≥ request.issued
  · simp only [if_pos hdue]
    rw [TreeMap.getElem?_erase, if_neg fun heq => hne (Std.compare_eq_iff_eq.mp heq)]
  · simp only [if_neg hdue]

theorem expireAll (now : Nat) {entries : List (UInt32 × Request)} {acc : Bridge × Option Nat}
    (h : Inv acc.1) (hdistinct : entries.Pairwise fun a b => a.1 ≠ b.1)
    (hfind : ∀ entry ∈ entries, acc.1.pendingRequests[entry.1]? = some entry.2) :
    Inv (entries.foldl (WebBridge.expire now) acc).1 := by
  induction entries generalizing acc with
  | nil => exact h
  | cons entry entries ih =>
    obtain ⟨hhead, htail⟩ := List.pairwise_cons.mp hdistinct
    obtain ⟨hfirst, hrest⟩ := List.forall_mem_cons.mp hfind
    refine ih (h.expire now acc.2 hfirst) htail fun entry' hmem => ?_
    exact (expire_find (hhead entry' hmem)).trans (hrest entry' hmem)

theorem cleanup (h : Inv s) (now : Nat) : Inv (cleanup s now) := by
  obtain ⟨scheduled, heq⟩ := cleanup_cases s now
  rw [heq]
  have hdistinct : s.pendingRequests.toList.Pairwise fun a b => a.1 ≠ b.1 :=
    TreeMap.distinct_keys_toList.imp fun hab heq => hab (Std.compare_eq_iff_eq.mpr heq)
  have hall : Inv (s.pendingRequests.toList.foldl (WebBridge.expire now) (s, none)).1 :=
    expireAll now h hdistinct fun entry hmem => TreeMap.mem_toList_iff_getElem?_eq_some.mp hmem
  exact hall.frame rfl rfl rfl rfl

/-! ## runs -/

theorem inbound (h : Inv s) (m : Message) : Inv (inbound T s m) := by
  rcases inbound_cases s m with ⟨_, heq⟩ | ⟨events, hevents, heq⟩ | ⟨id, request, -, hfind, heq⟩
  · rw [heq]
    exact h.frame rfl rfl rfl rfl
  · rw [heq]
    exact h.events hevents
  · rw [heq, if_pos (h.entries id request hfind).1]
    exact h.answer hfind rfl rfl nofun

theorem step (h : Inv s) (l : Label) (hok : Fresh T s l) (hs : next T s l = some s') : Inv s' := by
  cases l with
  | attach channel protocol =>
    obtain rfl := Option.some.inj hs
    unfold attach
    split
    · exact h.frame rfl rfl rfl rfl
    · exact h
  | detach channel =>
    obtain rfl := Option.some.inj hs
    exact h.frame rfl rfl rfl rfl
  | invoke channelId message now =>
    obtain rfl := Option.some.inj hs
    rcases invoke_cases s channelId message now with ⟨hdest, message', -, heq⟩ | ⟨_, -, heq⟩
    · rw [heq]
      obtain ⟨hchannel, hbound⟩ := hok hdest
      exact h.forward hchannel hbound
    · rw [heq]
      exact h.frame rfl rfl rfl rfl
  | inbound message =>
    obtain rfl := Option.some.inj hs
    exact h.inbound message
  | cleanup now =>
    obtain rfl := Option.some.inj hs
    exact h.cleanup now

end Inv

/-! ## the requests of the labels -/

/-- The channel and the id of a call of `Invoke` that answers nothing, under the next id. -/
def forwardedBy (T : Thunder) (s : Bridge) : Label → List Forwarded
  | .invoke channelId inbound now =>
    if (invoke T s channelId inbound now).2 = none then
      [⟨s.sequenceId + 1, channelId, inbound.id.getD T.defaultId⟩]
    else []
  | _ => []

section
variable {T : Thunder} {s s' : Bridge}

theorem invoke_forwarded (channelId : UInt32) (m : Message) (now : ℕ) :
    (invoke T s channelId m now).1.forwarded =
      forwardedBy T s (.invoke channelId m now) ++ s.forwarded := by
  unfold forwardedBy
  dsimp only
  rcases invoke_cases (T := T) s channelId m now with ⟨hdest, message, hid, heq⟩ | ⟨_, hother, heq⟩
  · rw [if_pos ((invoke_answer_iff s channelId m now).mpr hdest), heq, ← hid]
    rfl
  · rw [if_neg (mt (invoke_answer_iff s channelId m now).mp hother), heq]
    rfl

theorem inbound_forwarded (m : Message) : (inbound T s m).forwarded = s.forwarded := by
  rcases inbound_cases (T := T) s m with ⟨_, heq⟩ | ⟨_, -, heq⟩ | ⟨_, _, -, -, heq⟩
  · rw [heq]
  · rw [heq]
  · rw [heq]
    split <;> rfl

theorem reverse_forwardedBy (s : Bridge) (l : Label) :
    (forwardedBy T s l).reverse = forwardedBy T s l := by
  cases l with
  | invoke channelId m now =>
    dsimp only [forwardedBy]
    split <;> rfl
  | _ => rfl

theorem forwarded_next (l : Label) (h : next T s l = some s') :
    s'.forwarded = forwardedBy T s l ++ s.forwarded := by
  cases l with
  | attach channel protocol =>
    obtain rfl := Option.some.inj h
    unfold attach
    split <;> rfl
  | detach channel =>
    obtain rfl := Option.some.inj h
    rfl
  | invoke channelId m now =>
    obtain rfl := Option.some.inj h
    exact invoke_forwarded channelId m now
  | inbound m =>
    obtain rfl := Option.some.inj h
    exact inbound_forwarded m
  | cleanup now =>
    obtain rfl := Option.some.inj h
    exact cleanup_frame (·.forwarded) (fun _ _ _ _ => rfl) s now

end

/-- **The requests of every run.** -/
theorem requests_answered (T : Thunder) (callsign : String) (timeout : Option UInt16)
    (ls : List Label) (h : Each (next T) (Fresh T) (initialized T callsign timeout) ls) :
    Always (next T) (Answered T) (initialized T callsign timeout) ls ∧
      Records (next T) (forwardedBy T) (·.forwarded.reverse) (initialized T callsign timeout)
        ls := by
  have hinv : Always (next T) Inv (initialized T callsign timeout) ls :=
    always_of_each (fun _ l _ hI hok hs => hI.step l hok hs) (Inv.initialized callsign timeout) h
  refine ⟨hinv.imp fun _ hI => hI.answered, records (fun s l s' hs => ?_) _ ls⟩
  rw [forwarded_next l hs, List.reverse_append, reverse_forwardedBy]

/-- Two requests with the same id: the second is answered, the first times out, and then both are
answered again. -/
def lateAnswers : List Label :=
  let answer (newId : UInt32) := Label.inbound { Message.empty with id := some newId }
  let request : Message := { Message.empty with id := some 1, designator := "status" }
  [.attach 5 "json",
    .inbound
      { Message.empty with designator := "registerjsonrpcmethods", parameters := "status" },
    .invoke 7 request 0, .invoke 8 request 1, answer 3, .cleanup 3000000, answer 2, answer 3]

theorem late_answers_dropped :
    ∃ s, run (next plainThunder) (initialized plainThunder "WebBridge" none) lateAnswers = some s ∧
      (s.submitted.take 2).map (fun sub => (sub.channelId, sub.message.id, sub.cause)) =
        [(7, some 1, .timedOut 2), (8, some 1, .response 3)] ∧
      Always (next plainThunder) (Answered plainThunder)
        (initialized plainThunder "WebBridge" none) lateAnswers ∧
      Records (next plainThunder) (forwardedBy plainThunder) (·.forwarded.reverse)
        (initialized plainThunder "WebBridge" none) lateAnswers :=
  ⟨_, rfl, by decide +kernel, requests_answered plainThunder "WebBridge" none lateAnswers
    (by decide +kernel)⟩

end WebBridge
