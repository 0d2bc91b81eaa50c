import EntServicesInfra.WebBridge.Bridge
import Mathlib.Data.Finset.Card

/-!
# WebBridge: the requests that `Cleanup` gives up

`Cleanup` erases from the map while it walks through it, and finds the next deadline on the way.

* `Expires`            what one `cleanup` does: the requests that are due are answered and gone, the
                       others stay, and the next `cleanup` is scheduled at the first deadline left;
* `expires_cleanup`    every `cleanup` does;
* `Punctual`           a `cleanup` at the time that was scheduled last;
* `cleanup_expires`    along a run a request waits until the first `cleanup` at its deadline or later;
                       if they are punctual, that is at the deadline itself.
-/

namespace WebBridge
open Std Runs

/-! ## what is expected -/

/-- The answer to a pending request that is given up: the error of a time-out and nothing else, to
the requester and under the id the request had there. -/
def timedOut (newId : UInt32) (request : Request) : Submission where
  channelId := request.channelId
  message :=
    { jsonrpc := none
      id := some request.sequenceId
      designator := ""
      parameters := ""
      result := none
      error := some ⟨.ERROR_TIMEDOUT, "There is no response form the server within time!!!"⟩ }
  cause := .timedOut newId

namespace Bridge

/-- the first deadline of a pending request -/
structure Earliest (s : Bridge) (slot : Nat) : Prop where
  attained : ∃ (newId : UInt32) (request : Request),
    s.pendingRequests[newId]? = some request ∧ request.issued = slot
  least : ∀ (newId : UInt32) (request : Request),
    s.pendingRequests[newId]? = some request → slot ≤ request.issued

/-- the answers that say that a request has timed out, newest first -/
def timeouts (s : Bridge) (newId : UInt32) : List Submission :=
  s.submitted.filter (·.cause = .timedOut newId)

end Bridge

/-- **Exactly the requests that are due are given up.** -/
structure Expires (s : Bridge) (now : Nat) (s' : Bridge) : Prop where
  pending : ∀ newId : UInt32, s'.pendingRequests[newId]? =
    s.pendingRequests[newId]?.filter fun request => now < request.issued
  answered : ∃ answers, s'.submitted = answers ++ s.submitted ∧ answers.Nodup ∧
    ∀ sub, sub ∈ answers ↔ ∃ (newId : UInt32) (request : Request),
      s.pendingRequests[newId]? = some request ∧ request.issued ≤ now ∧
        sub = timedOut newId request
  scheduled : if s'.pendingRequests.isEmpty then s'.scheduled = s.scheduled
    else ∃ slot, s'.Earliest slot ∧ s'.scheduled = slot :: s.scheduled
  frame : ∃ pendingRequests submitted scheduled, s' = { s with
    pendingRequests := pendingRequests, submitted := submitted, scheduled := scheduled }

/-- A `cleanup` at the time that was scheduled last. -/
def Punctual (s : Bridge) : Label → Prop
  | .cleanup now => s.scheduled.head? = some now
  | _ => False

/-- The step neither answers the request nor gives it up. -/
def Label.leaves (newId : UInt32) (deadline : Nat) : Label → Prop
  | .inbound message => message.id ≠ some newId
  | .cleanup now => now < deadline
  | _ => True

/-! ## the loop -/

/-- `nextSlot` after a request that stays -/
def earlier (nextSlot : Option Nat) (issued : Nat) : Option Nat :=
  match nextSlot with
  | none => some issued
  | some slot => if slot > issued then some issued else some slot

theorem earlier_some (slot issued : Nat) : earlier (some slot) issued = some (min slot issued) := by
  unfold earlier
  dsimp only
  split
  · rw [min_eq_right (by omega)]
  · rw [min_eq_left (by omega)]

theorem foldl_earlier_some (deadlines : List Nat) (slot : Nat) :
    deadlines.foldl earlier (some slot) = some (deadlines.foldl min slot) := by
  induction deadlines generalizing slot with
  | nil => rfl
  | cons issued deadlines ih => rw [List.foldl_cons, earlier_some, ih, List.foldl_cons]

theorem foldl_earlier (deadlines : List Nat) : deadlines.foldl earlier none = deadlines.min? := by
  cases deadlines with
  | nil => rfl
  | cons issued deadlines => exact foldl_earlier_some deadlines issued

/-- the entries that are due -/
def overdue (now : Nat) (entries : List (UInt32 × Request)) : List (UInt32 × Request) :=
  entries.filter fun entry => entry.2.issued ≤ now

/-- the deadlines of the others -/
def deadlinesLeft (now : Nat) (entries : List (UInt32 × Request)) : List Nat :=
  (entries.filter fun entry => now < entry.2.issued).map fun entry => entry.2.issued

/-- the map without these entries -/
def eraseAll (pendingRequests : PendingMap) (entries : List (UInt32 × Request)) : PendingMap :=
  entries.foldl (fun m entry => m.erase entry.1) pendingRequests

/-- **The loop splits the entries.**  What is due is erased and answered, and the rest goes into
`nextSlot`. -/
theorem foldl_expire (now : Nat) (entries : List (UInt32 × Request)) (s : Bridge)
    (nextSlot : Option Nat) :
    entries.foldl (expire now) (s, nextSlot) =
      ({ s with
          pendingRequests := eraseAll s.pendingRequests (overdue now entries)
          submitted :=
            ((overdue now entries).map fun entry => timedOut entry.1 entry.2).reverse ++
              s.submitted },
        (deadlinesLeft now entries).foldl earlier nextSlot) := by
  induction entries generalizing s nextSlot with
  | nil => rfl
  | cons entry entries ih =>
    obtain ⟨newId, request⟩ := entry
    rw [List.foldl_cons]
    by_cases hdue : request.issued ≤ now
    · have hleft : deadlinesLeft now ((newId, request) :: entries) = deadlinesLeft now entries := by
        unfold deadlinesLeft
        rw [List.filter_cons_of_neg (by simpa using hdue)]
      have hdues : overdue now ((newId, request) :: entries) =
          (newId, request) :: overdue now entries :=
        List.filter_cons_of_pos (by simpa using hdue)
      have hstep : expire now (s, nextSlot) (newId, request) =
          ({ s with
              pendingRequests := s.pendingRequests.erase newId
              submitted := timedOut newId request :: s.submitted }, nextSlot) := if_pos hdue
      rw [hstep, ih, hleft, hdues, List.map_cons, List.reverse_cons, List.append_assoc]
      rfl
    · have hleft : deadlinesLeft now ((newId, request) :: entries) =
          request.issued :: deadlinesLeft now entries := by
        unfold deadlinesLeft
        rw [List.filter_cons_of_pos (by simpa using hdue), List.map_cons]
      have hdues : overdue now ((newId, request) :: entries) = overdue now entries :=
        List.filter_cons_of_neg (by simpa using hdue)
      have hstep : expire now (s, nextSlot) (newId, request) =
          (s, earlier nextSlot request.issued) := if_neg hdue
      rw [hstep, ih, hleft, hdues, List.foldl_cons]

theorem getElem?_eraseAll {newId : UInt32} (pendingRequests : PendingMap)
    (entries : List (UInt32 × Request)) :
    (eraseAll pendingRequests entries)[newId]? =
      if newId ∈ entries.map (·.1) then none else pendingRequests[newId]? := by
  unfold eraseAll
  induction entries generalizing pendingRequests with
  | nil => rfl
  | cons entry entries ih =>
    rw [List.foldl_cons, ih, TreeMap.getElem?_erase, List.map_cons]
    by_cases hlater : newId ∈ entries.map (·.1)
    · rw [if_pos hlater, if_pos (List.mem_cons_of_mem _ hlater)]
    · rw [if_neg hlater]
      by_cases hsame : newId = entry.1
      · rw [if_pos (Std.compare_eq_iff_eq.mpr hsame.symm), if_pos (hsame ▸ List.mem_cons_self)]
      · rw [if_neg fun heq => hsame (Std.compare_eq_iff_eq.mp heq).symm, if_neg]
        rw [List.mem_cons, not_or]
        exact ⟨hsame, hlater⟩

/-! ## one `cleanup` -/

variable {s s' : Bridge} {now : Nat} {newId : UInt32} {request : Request}

theorem mem_overdue : (newId, request) ∈ overdue now s.pendingRequests.toList ↔
    s.pendingRequests[newId]? = some request ∧ request.issued ≤ now := by
  unfold overdue
  rw [List.mem_filter, TreeMap.mem_toList_iff_getElem?_eq_some, decide_eq_true_iff]

theorem mem_deadlinesLeft {deadline : Nat} :
    deadline ∈ deadlinesLeft now s.pendingRequests.toList ↔
      ∃ (newId : UInt32) (request : Request), s.pendingRequests[newId]? = some request ∧
        now < request.issued ∧ request.issued = deadline := by
  unfold deadlinesLeft
  rw [List.mem_map]
  constructor
  · intro h
    obtain ⟨⟨newId, request⟩, hmem, rfl⟩ := h
    rw [List.mem_filter, TreeMap.mem_toList_iff_getElem?_eq_some, decide_eq_true_iff] at hmem
    exact ⟨newId, request, hmem.1, hmem.2, rfl⟩
  · intro h
    obtain ⟨newId, request, hfind, hlater, rfl⟩ := h
    refine ⟨(newId, request), ?_, rfl⟩
    rw [List.mem_filter, TreeMap.mem_toList_iff_getElem?_eq_some, decide_eq_true_iff]
    exact ⟨hfind, hlater⟩

theorem pending_of_erased : (eraseAll s.pendingRequests
    (overdue now s.pendingRequests.toList))[newId]? =
      s.pendingRequests[newId]?.filter fun request => now < request.issued := by
  rw [getElem?_eraseAll]
  cases hfind : s.pendingRequests[newId]? with
  | none =>
    split
    · rfl
    · rfl
  | some request =>
    have hkey : newId ∈ (overdue now s.pendingRequests.toList).map (·.1) ↔
        request.issued ≤ now := by
      rw [List.mem_map]
      constructor
      · intro h
        obtain ⟨⟨_, request'⟩, hmem, rfl⟩ := h
        obtain ⟨hfind', hdue⟩ := mem_overdue.mp hmem
        obtain rfl := Option.some.inj (hfind.symm.trans hfind')
        exact hdue
      · exact fun hdue => ⟨(newId, request), mem_overdue.mpr ⟨hfind, hdue⟩, rfl⟩
    rw [Option.filter_some]
    by_cases hdue : request.issued ≤ now
    · rw [if_pos (hkey.mpr hdue), if_neg (by simpa using hdue)]
    · rw [if_neg (mt hkey.mp hdue), if_pos (by simpa using hdue)]

theorem nodup_answers (s : Bridge) (now : Nat) :
    ((overdue now s.pendingRequests.toList).map fun entry => timedOut entry.1 entry.2).Nodup := by
  have hkeys : s.pendingRequests.toList.Pairwise fun a b => a.1 ≠ b.1 :=
    TreeMap.distinct_keys_toList.imp fun hab heq => hab (Std.compare_eq_iff_eq.mpr heq)
  refine List.pairwise_map.mpr ((hkeys.sublist List.filter_sublist).imp fun hab heq => hab ?_)
  exact Cause.timedOut.inj (congrArg Submission.cause heq)

/-- The next slot is the first deadline left. -/
theorem earliest_of_min {slot : Nat}
    (hpending : ∀ newId : UInt32, s'.pendingRequests[newId]? =
      s.pendingRequests[newId]?.filter fun request => now < request.issued)
    (h : (deadlinesLeft now s.pendingRequests.toList).min? = some slot) : s'.Earliest slot := by
  have hleft : ∀ (newId : UInt32) (request : Request),
      s'.pendingRequests[newId]? = some request ↔
        s.pendingRequests[newId]? = some request ∧ now < request.issued := by
    intro newId request
    rw [hpending, Option.filter_eq_some_iff, decide_eq_true_iff]
  obtain ⟨hmem, hleast⟩ := List.min?_eq_some_iff.mp h
  constructor
  · obtain ⟨newId, request, hfind, hlater, heq⟩ := mem_deadlinesLeft.mp hmem
    exact ⟨newId, request, (hleft newId request).mpr ⟨hfind, hlater⟩, heq⟩
  · intro newId request hfind
    obtain ⟨hfind', hlater⟩ := (hleft newId request).mp hfind
    exact hleast _ (mem_deadlinesLeft.mpr ⟨newId, request, hfind', hlater, rfl⟩)

theorem isEmpty_of_min_none
    (hpending : ∀ newId : UInt32, s'.pendingRequests[newId]? =
      s.pendingRequests[newId]?.filter fun request => now < request.issued)
    (h : (deadlinesLeft now s.pendingRequests.toList).min? = none) :
    s'.pendingRequests.isEmpty = true := by
  rw [List.min?_eq_none_iff] at h
  rw [TreeMap.isEmpty_iff_forall_not_mem]
  intro newId hmem
  obtain ⟨request, hfind⟩ := Option.isSome_iff_exists.mp
    (TreeMap.mem_iff_isSome_getElem?.mp hmem)
  rw [hpending, Option.filter_eq_some_iff, decide_eq_true_iff] at hfind
  have hin := mem_deadlinesLeft.mpr ⟨newId, request, hfind.1, hfind.2, rfl⟩
  rw [h] at hin
  exact absurd hin List.not_mem_nil

theorem Bridge.Earliest.not_isEmpty {slot : Nat} (h : s.Earliest slot) :
    ¬ s.pendingRequests.isEmpty = true := by
  intro hempty
  obtain ⟨newId, request, hfind, -⟩ := h.attained
  rw [TreeMap.getElem?_of_isEmpty hempty] at hfind
  cases hfind

/-- **One `cleanup`.** -/
theorem expires_cleanup (s : Bridge) (now : Nat) : Expires s now (cleanup s now) := by
  have hanswers : ∀ sub, sub ∈ ((overdue now s.pendingRequests.toList).map
      fun entry => timedOut entry.1 entry.2).reverse ↔ ∃ (newId : UInt32) (request : Request),
        s.pendingRequests[newId]? = some request ∧ request.issued ≤ now ∧
          sub = timedOut newId request := by
    intro sub
    rw [List.mem_reverse, List.mem_map]
    constructor
    · intro h
      obtain ⟨⟨newId, request⟩, hmem, rfl⟩ := h
      obtain ⟨hfind, hdue⟩ := mem_overdue.mp hmem
      exact ⟨newId, request, hfind, hdue, rfl⟩
    · intro h
      obtain ⟨newId, request, hfind, hdue, rfl⟩ := h
      exact ⟨(newId, request), mem_overdue.mpr ⟨hfind, hdue⟩, rfl⟩
  have hnodup := List.nodup_reverse.mpr (nodup_answers s now)
  unfold cleanup
  rw [foldl_expire, foldl_earlier]
  cases hmin : (deadlinesLeft now s.pendingRequests.toList).min? with
  | none =>
    constructor
    · exact fun newId => pending_of_erased
    · exact ⟨_, rfl, hnodup, hanswers⟩
    · rw [if_pos (isEmpty_of_min_none (s := s) (fun newId => pending_of_erased) hmin)]
    · exact ⟨_, _, _, rfl⟩
  | some slot =>
    have hearliest : Bridge.Earliest { s with
        pendingRequests := eraseAll s.pendingRequests (overdue now s.pendingRequests.toList)
        submitted := ((overdue now s.pendingRequests.toList).map
          fun entry => timedOut entry.1 entry.2).reverse ++ s.submitted
        scheduled := slot :: s.scheduled } slot :=
      earliest_of_min (s := s) (fun newId => pending_of_erased) hmin
    constructor
    · exact fun newId => pending_of_erased
    · exact ⟨_, rfl, hnodup, hanswers⟩
    · rw [if_neg hearliest.not_isEmpty]
      exact ⟨slot, hearliest, rfl⟩
    · exact ⟨_, _, _, rfl⟩

/-! ## one request -/

/-- The answers to one request are those of before, and one more if it is due. -/
theorem timeouts_cleanup (s : Bridge) (now : Nat) (newId : UInt32) :
    (cleanup s now).timeouts newId =
      (s.pendingRequests[newId]?.filter fun request => request.issued ≤ now).toList.map
        (timedOut newId) ++ s.timeouts newId := by
  obtain ⟨answers, hsubmitted, hnodup, hmem⟩ := (expires_cleanup s now).answered
  unfold Bridge.timeouts
  rw [hsubmitted, List.filter_append]
  congr 1
  have hin : ∀ sub, sub ∈ answers.filter (·.cause = .timedOut newId) ↔
      ∃ request, s.pendingRequests[newId]? = some request ∧ request.issued ≤ now ∧
        sub = timedOut newId request := by
    intro sub
    rw [List.mem_filter, hmem, decide_eq_true_iff]
    constructor
    · intro h
      obtain ⟨⟨newId', request, hfind, hdue, rfl⟩, hcause⟩ := h
      obtain rfl := Cause.timedOut.inj hcause
      exact ⟨request, hfind, hdue, rfl⟩
    · intro h
      obtain ⟨request, hfind, hdue, rfl⟩ := h
      exact ⟨⟨newId, request, hfind, hdue, rfl⟩, rfl⟩
  cases hfind : s.pendingRequests[newId]? with
  | none =>
    refine List.eq_nil_iff_forall_not_mem.mpr fun sub hsub => ?_
    obtain ⟨request, hsome, -⟩ := (hin sub).mp hsub
    rw [hfind] at hsome
    cases hsome
  | some request =>
    rw [Option.filter_some]
    by_cases hdue : request.issued ≤ now
    · rw [if_pos (decide_eq_true hdue)]
      apply List.perm_singleton.mp
      apply (List.perm_ext_iff_of_nodup (hnodup.filter _) (List.nodup_singleton _)).mpr
      intro sub
      rw [hin, hfind, List.mem_singleton]
      constructor
      · intro h
        obtain ⟨request', hsome, -, rfl⟩ := h
        obtain rfl := Option.some.inj hsome
        rfl
      · exact fun h => ⟨request, rfl, hdue, h⟩
    · rw [if_neg (mt of_decide_eq_true hdue)]
      refine List.eq_nil_iff_forall_not_mem.mpr fun sub hsub => ?_
      obtain ⟨request', hsome, hdue', -⟩ := (hin sub).mp hsub
      obtain rfl := Option.some.inj (hfind.symm.trans hsome)
      exact hdue hdue'

/-- the request waits, with these answers before it -/
structure Bridge.Waits (s : Bridge) (newId : UInt32) (request : Request)
    (before : List Submission) : Prop where
  pending : s.pendingRequests[newId]? = some request
  timeouts : s.timeouts newId = before

variable {T : Thunder} {l : Label} {before : List Submission}

theorem Bridge.Waits.early (h : s.Waits newId request before) (hearly : now < request.issued) :
    (cleanup s now).Waits newId request before where
  pending := by
    rw [(expires_cleanup s now).pending, h.pending, Option.filter_some,
      if_pos (decide_eq_true hearly)]
  timeouts := by
    rw [timeouts_cleanup, h.pending, Option.filter_some, if_neg (by simpa using hearly), h.timeouts]
    rfl

/-- It is given up when it is due, and answered once. -/
theorem Bridge.Waits.due (h : s.Waits newId request before) (hdue : request.issued ≤ now) :
    (cleanup s now).pendingRequests[newId]? = none ∧
      (cleanup s now).timeouts newId = timedOut newId request :: before := by
  constructor
  · rw [(expires_cleanup s now).pending, h.pending, Option.filter_some, if_neg (by simpa using hdue)]
  · rw [timeouts_cleanup, h.pending, Option.filter_some, if_pos (decide_eq_true hdue), h.timeouts]
    rfl

/-- A message that is no time-out is submitted. -/
theorem Bridge.Waits.submits (h : s.Waits newId request before) (submitted : List Submission)
    (hpending : s'.pendingRequests[newId]? = s.pendingRequests[newId]?)
    (hsubmitted : s'.submitted = submitted ++ s.submitted)
    (hcause : ∀ sub ∈ submitted, sub.cause ≠ .timedOut newId) :
    s'.Waits newId request before where
  pending := hpending.trans h.pending
  timeouts := by
    have hnone : submitted.filter (·.cause = .timedOut newId) = [] :=
      List.filter_eq_nil_iff.mpr fun sub hsub heq => hcause sub hsub (of_decide_eq_true heq)
    unfold Bridge.timeouts
    rw [hsubmitted, List.filter_append, hnone]
    exact h.timeouts

/-- What neither answers the request nor gives it up lets it wait. -/
theorem Bridge.Waits.next (h : s.Waits newId request before) (hl : l.leaves newId request.issued)
    (hs : next T s l = some s') : s'.Waits newId request before := by
  cases l with
  | attach channel protocol =>
    obtain rfl := Option.some.inj hs
    unfold attach
    split
    · exact ⟨h.pending, h.timeouts⟩
    · exact h
  | detach channel =>
    obtain rfl := Option.some.inj hs
    exact ⟨h.pending, h.timeouts⟩
  | invoke channelId message now =>
    obtain rfl := Option.some.inj hs
    rcases invoke_cases s channelId message now with ⟨-, message', -, heq⟩ | ⟨_, -, heq⟩
    · rw [heq]
      -- the entry that exists stays, whatever the new id is
      have hmem : newId ∈ s.pendingRequests := by
        rw [TreeMap.mem_iff_isSome_getElem?, h.pending]
        rfl
      refine h.submits [_] ?_ rfl ?_
      · refine TreeMap.getElem?_insertIfNew.trans (if_neg fun hnew => hnew.2 ?_)
        rwa [Std.compare_eq_iff_eq.mp hnew.1]
      · exact fun sub hsub => List.mem_singleton.mp hsub ▸ Cause.noConfusion
    · rw [heq]
      exact ⟨h.pending, h.timeouts⟩
  | inbound message =>
    obtain rfl := Option.some.inj hs
    rcases inbound_cases s message with ⟨_, heq⟩ | ⟨events, hevents, heq⟩ | ⟨id, request', hid, -, heq⟩
    · rw [heq]
      exact ⟨h.pending, h.timeouts⟩
    · rw [heq]
      exact h.submits _ rfl rfl fun sub hsub => hevents sub hsub ▸ Cause.noConfusion
    · rw [heq]
      have herase : (s.pendingRequests.erase id)[newId]? = s.pendingRequests[newId]? := by
        rw [TreeMap.getElem?_erase, if_neg fun hsame => hl ?_]
        rw [hid, Std.compare_eq_iff_eq.mp hsame]
      split
      · refine h.submits [_] herase rfl ?_
        exact fun sub hsub => List.mem_singleton.mp hsub ▸ Cause.noConfusion
      · exact h.submits [] herase rfl fun _ hsub => absurd hsub List.not_mem_nil
  | cleanup now =>
    obtain rfl := Option.some.inj hs
    exact h.early hl

theorem Bridge.Waits.run {ls : List Label} (h : s.Waits newId request before)
    (hls : ∀ l ∈ ls, l.leaves newId request.issued) (hrun : run (WebBridge.next T) s ls = some s') :
    s'.Waits newId request before := by
  induction ls generalizing s with
  | nil =>
    obtain rfl := Option.some.inj hrun
    exact h
  | cons l ls ih =>
    obtain ⟨s₁, hs₁, hrun₁⟩ := run_cons_eq_some.mp hrun
    obtain ⟨hl, hrest⟩ := List.forall_mem_cons.mp hls
    exact ih (h.next hl hs₁) hrest hrun₁

/-! ## punctual runs -/

/-- The last scheduled time is the first deadline, if there is one. -/
def Bridge.Slotted (s : Bridge) : Prop :=
  ¬ s.pendingRequests.isEmpty = true → ∃ slot, s.Earliest slot ∧ s.scheduled.head? = some slot

theorem slotted_cleanup (s : Bridge) (now : Nat) : (cleanup s now).Slotted := by
  intro hsome
  have hscheduled := (expires_cleanup s now).scheduled
  rw [if_neg hsome] at hscheduled
  obtain ⟨slot, hearliest, heq⟩ := hscheduled
  exact ⟨slot, hearliest, by rw [heq]; rfl⟩

theorem not_isEmpty_of_pending (hfind : s.pendingRequests[newId]? = some request) :
    ¬ s.pendingRequests.isEmpty = true := by
  intro hempty
  rw [TreeMap.getElem?_of_isEmpty hempty] at hfind
  cases hfind

/-- the requests are given up at their own deadlines -/
theorem Bridge.Slotted.next (newId : UInt32) (request : Request) (h : s.Slotted)
    (hl : Punctual s l) (hs : next T s l = some s') :
    s'.Slotted ∧ (s.pendingRequests[newId]? = none → s'.pendingRequests[newId]? = none) ∧
      (s.pendingRequests[newId]? = some request →
        l = .cleanup request.issued ∧ s'.pendingRequests[newId]? = none ∨
          s'.pendingRequests[newId]? = some request) := by
  cases l with
  | cleanup now =>
    obtain rfl := Option.some.inj hs
    refine ⟨slotted_cleanup s now, fun hnone => ?_, fun hfind => ?_⟩
    · rw [(expires_cleanup s now).pending, hnone]
      rfl
    · obtain ⟨slot, hearliest, hhead⟩ := h (not_isEmpty_of_pending hfind)
      obtain rfl := Option.some.inj (hhead.symm.trans hl)
      rw [(expires_cleanup s slot).pending, hfind, Option.filter_some]
      rcases Nat.eq_or_lt_of_le (hearliest.least newId request hfind) with heq | hlater
      · left
        exact ⟨by rw [heq], if_neg (by rw [heq]; simp)⟩
      · right
        exact if_pos (decide_eq_true hlater)
  | attach channel protocol => exact hl.elim
  | detach channel => exact hl.elim
  | invoke channelId message now => exact hl.elim
  | inbound message => exact hl.elim

theorem Bridge.Slotted.gone {ls : List Label} (h : s.Slotted)
    (hls : Each (WebBridge.next T) Punctual s ls) (hrun : run (WebBridge.next T) s ls = some s')
    (hnone : s.pendingRequests[newId]? = none) : s'.pendingRequests[newId]? = none := by
  induction ls generalizing s with
  | nil =>
    obtain rfl := Option.some.inj hrun
    exact hnone
  | cons l ls ih =>
    obtain ⟨s₁, hs₁, hrun₁⟩ := run_cons_eq_some.mp hrun
    obtain ⟨hl, hrest⟩ := each_cons.mp hls
    obtain ⟨hslotted, hgone, -⟩ := h.next newId ⟨0, 0, 0⟩ hl hs₁
    exact ih hslotted (hrest s₁ hs₁) hrun₁ (hgone hnone)

/-- A request is given up at its deadline, or waits with the next `cleanup` scheduled no later. -/
theorem Bridge.Slotted.run {ls : List Label} (h : s.Slotted)
    (hls : Each (WebBridge.next T) Punctual s ls) (hrun : run (WebBridge.next T) s ls = some s')
    (hfind : s.pendingRequests[newId]? = some request) :
    .cleanup request.issued ∈ ls ∧ s'.pendingRequests[newId]? = none ∨
      s'.pendingRequests[newId]? = some request ∧
        ∃ slot ≤ request.issued, s'.scheduled.head? = some slot := by
  induction ls generalizing s with
  | nil =>
    obtain rfl := Option.some.inj hrun
    obtain ⟨slot, hearliest, hhead⟩ := h (not_isEmpty_of_pending hfind)
    exact .inr ⟨hfind, slot, hearliest.least newId request hfind, hhead⟩
  | cons l ls ih =>
    obtain ⟨s₁, hs₁, hrun₁⟩ := run_cons_eq_some.mp hrun
    obtain ⟨hl, hrest⟩ := each_cons.mp hls
    obtain ⟨hslotted, -, hstep⟩ := h.next newId request hl hs₁
    rcases hstep hfind with ⟨heq, hnone⟩ | hstays
    · exact .inl ⟨heq ▸ List.mem_cons_self, hslotted.gone (hrest s₁ hs₁) hrun₁ hnone⟩
    · refine (ih hslotted (hrest s₁ hs₁) hrun₁ hstays).imp_left fun hin => ?_
      exact ⟨List.mem_cons_of_mem _ hin.1, hin.2⟩

/-- the ids that wait -/
def Bridge.waiting (s : Bridge) : Finset UInt32 := s.pendingRequests.keys.toFinset

theorem mem_waiting : newId ∈ s.waiting ↔ s.pendingRequests[newId]? ≠ none := by
  unfold Bridge.waiting
  rw [List.mem_toFinset, TreeMap.mem_keys, TreeMap.mem_iff_isSome_getElem?,
    Option.isSome_iff_ne_none]

/-- Every punctual `cleanup` gives a request up. -/
theorem waiting_cleanup {slot : Nat} (h : s.Earliest slot) :
    (cleanup s slot).waiting.card < s.waiting.card := by
  have hpending := (expires_cleanup s slot).pending
  apply Finset.card_lt_card
  rw [Finset.ssubset_iff_of_subset]
  · obtain ⟨newId, request, hfind, heq⟩ := h.attained
    refine ⟨newId, mem_waiting.mpr ?_, fun hmem => mem_waiting.mp hmem ?_⟩
    · rw [hfind]
      exact Option.some_ne_none request
    · rw [hpending, hfind, Option.filter_some, if_neg (by rw [heq]; simp)]
  · intro newId hmem
    rw [mem_waiting, hpending] at hmem
    refine mem_waiting.mpr fun hnone => hmem ?_
    rw [hnone]
    rfl

/-- Punctual runs give every request up. -/
theorem exists_punctual (T : Thunder) (h : s.Slotted) :
    ∃ ls s', run (next T) s ls = some s' ∧ Each (next T) Punctual s ls ∧
      s'.pendingRequests.isEmpty = true := by
  induction hn : s.waiting.card using Nat.strong_induction_on generalizing s with
  | h n ih =>
    by_cases hempty : s.pendingRequests.isEmpty = true
    · exact ⟨[], s, rfl, each_nil _ s, hempty⟩
    · obtain ⟨slot, hearliest, hhead⟩ := h hempty
      obtain ⟨ls, s', hrun, hls, hend⟩ :=
        ih _ (hn ▸ waiting_cleanup hearliest) (slotted_cleanup s slot) rfl
      have hstep : next T s (.cleanup slot) = some (cleanup s slot) := rfl
      exact ⟨.cleanup slot :: ls, s', run_cons_eq_some.mpr ⟨_, hstep, hrun⟩,
        each_cons_of hstep hhead hls, hend⟩

/-- **`Cleanup` gives up exactly the requests that are due**, each at the first `cleanup` at its
deadline or later; if the runs are punctual, each at its deadline, until none waits. -/
theorem cleanup_expires (T : Thunder) (s : Bridge) :
    (∀ now, Expires s now (cleanup s now)) ∧
    (∀ (newId : UInt32) (request : Request) (ls : List Label) (s' : Bridge),
      s.pendingRequests[newId]? = some request → (∀ l ∈ ls, l.leaves newId request.issued) →
      run (next T) s ls = some s' → s'.Waits newId request (s.timeouts newId) ∧
        ∀ now, request.issued ≤ now → (cleanup s' now).pendingRequests[newId]? = none ∧
          (cleanup s' now).timeouts newId = timedOut newId request :: s.timeouts newId) ∧
    (∀ (now : Nat) (newId : UInt32) (request : Request) (ls : List Label) (s' : Bridge),
      (cleanup s now).pendingRequests[newId]? = some request →
      Each (next T) Punctual (cleanup s now) ls → run (next T) (cleanup s now) ls = some s' →
        .cleanup request.issued ∈ ls ∧ s'.pendingRequests[newId]? = none ∨
          s'.pendingRequests[newId]? = some request ∧
            ∃ slot ≤ request.issued, s'.scheduled.head? = some slot) ∧
    ∀ now, ∃ ls s', run (next T) (cleanup s now) ls = some s' ∧
      Each (next T) Punctual (cleanup s now) ls ∧ s'.pendingRequests.isEmpty = true := by
  refine ⟨expires_cleanup s, ?_, ?_, ?_⟩
  · intro newId request ls s' hfind hls hrun
    have hwaits : s'.Waits newId request (s.timeouts newId) :=
      Bridge.Waits.run ⟨hfind, rfl⟩ hls hrun
    exact ⟨hwaits, fun now hdue => hwaits.due hdue⟩
  · intro now newId request ls s' hfind hls hrun
    exact (slotted_cleanup s now).run hls hrun hfind
  · exact fun now => exists_punctual T (slotted_cleanup s now)

end WebBridge
