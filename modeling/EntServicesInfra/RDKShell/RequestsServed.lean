import EntServicesInfra.RDKShell.RequestQueues
import Mathlib.Data.List.Nodup

/-!
# RDKShell: every request is served

* `Served`             every request pushed is executed at most once and in order, its semaphore is
                       posted once, after `mResult` is final, none leaves its queue otherwise, and
                       no caller waits for ever;
* `Inv.releasable`     the loop and the caller's own `sem_wait` are enough to release the caller;
* `requests_served`    `Served` holds all along a run exactly if no request is pushed after the loop
                       has ended.
-/

namespace RDKShell.RequestQueues
open Runs

/-! ## what the callers are promised -/

/-- The steps of the loop alone bring the caller of `i` out of `sem_wait`. -/
def Releasable (s : Shell) (i : Nat) : Prop :=
  ∃ ls s' r, (∀ l ∈ ls, l.ofLoop = true ∨ l = .wake i) ∧ run next s ls = some s' ∧
    s'.requests i = some r ∧ r.answer ≠ none

structure Served (s : Shell) : Prop where
  /-- no request is pushed twice -/
  once : ∀ kind, (s.pushed kind).Nodup
  fifo : ∀ kind, (s.executed kind).map Prod.fst <+: s.pushed kind
  /-- no semaphore is posted before the request is executed, and none twice -/
  after : ∀ kind, s.posted kind <+: (s.executed kind).map Prod.fst
  /-- no request leaves its queue without its semaphore being posted -/
  kept : ∀ kind, s.pushed kind = s.posted kind ++ s.queue kind
  /-- `mResult` is what the execution gave, and what the caller reads -/
  final : ∀ kind i result, (i, result) ∈ s.executed kind →
    ∃ r, s.requests i = some r ∧ r.mResult = result ∧ (r.answer = none ∨ r.answer = some result)
  released : ∀ i r, s.requests i = some r → r.answer = none → Releasable s i

/-- A request is pushed before the loop has ended. -/
def InTime (s : Shell) : Label → Prop
  | .push _ _ => s.loop ≠ .idle false
  | _ => True

/-! ## the invariant -/

/-- what the data of a request have to do with the history -/
structure Request.Good (s : Shell) (i : Nat) (r : Request) : Prop where
  pushed : i ∈ s.pushed r.kind
  value : r.mSemaphore.value = if i ∈ s.posted r.kind ∧ r.answer = none then 1 else 0
  answered : r.answer ≠ none → i ∈ s.posted r.kind
  result : ∀ b, (i, b) ∈ s.executed r.kind → r.mResult = b ∧ (r.answer = none ∨ r.answer = some b)

/-- the request that is executed and still in its queue -/
def underway (s : Shell) (kind : Kind) : List Nat :=
  if s.loop = .executed kind then (s.queue kind).take 1 else []

theorem underway_queue {s : Shell} {kind : Kind} {i : Nat} (h : i ∈ underway s kind) :
    i ∈ s.queue kind := by
  unfold underway at h
  split at h
  · exact List.mem_of_mem_take h
  · cases h

structure Inv (s : Shell) : Prop where
  kept : ∀ kind, s.pushed kind = s.posted kind ++ s.queue kind
  executed : ∀ kind, (s.executed kind).map Prod.fst = s.posted kind ++ underway s kind
  once : ∀ kind, (s.pushed kind).Nodup
  known : ∀ kind, ∀ i ∈ s.pushed kind, ∃ r, s.requests i = some r ∧ r.kind = kind
  good : ∀ i r, s.requests i = some r → r.Good s i
  front : ∀ kind, s.loop = .executed kind → s.queue kind ≠ []
  order : s.loop = .serving .killClient ∨ s.loop = .executed .killClient → s.queue .createDisplay = []
  ended : s.loop = .idle false → ∀ kind, s.queue kind = []
  booting : s.loop = .boot → s.sRunning = true

theorem inv_start : Inv .start where
  kept _ := rfl
  executed _ := rfl
  once _ := List.nodup_nil
  known := nofun
  good := nofun
  front := nofun
  order := fun _ => rfl
  ended := nofun
  booting := fun _ => rfl

section
variable {s : Shell} (h : Inv s)
include h

theorem Inv.not_posted {kind : Kind} {i : Nat} (hi : i ∈ s.queue kind) : i ∉ s.posted kind := by
  have honce := h.once kind
  rw [h.kept kind] at honce
  exact fun hp => (List.nodup_append.mp honce).2.2 i hp i hi rfl

theorem Inv.queued {kind : Kind} {i : Nat} (hi : i ∈ s.queue kind) :
    ∃ r, s.requests i = some r ∧ r.kind = kind ∧ r.answer = none ∧ r.mSemaphore.value = 0 := by
  have hpushed : i ∈ s.pushed kind := by
    rw [h.kept kind]
    exact List.mem_append_right _ hi
  obtain ⟨r, hr, hkind⟩ := h.known kind i hpushed
  have hgood := h.good i r hr
  have hnot : i ∉ s.posted r.kind := by
    rw [hkind]
    exact h.not_posted hi
  refine ⟨r, hr, hkind, ?_, ?_⟩
  · by_contra hanswer
    exact hnot (hgood.answered hanswer)
  · rw [hgood.value, if_neg fun hc => hnot hc.1]

/-- Steps that change neither the requests nor what was pushed, executed and posted. -/
theorem Inv.move {s' : Shell} (hrequests : s'.requests = s.requests) (hqueue : s'.queue = s.queue)
    (hpushed : s'.pushed = s.pushed) (hexecuted : s'.executed = s.executed)
    (hposted : s'.posted = s.posted) (hunderway : ∀ kind, underway s' kind = underway s kind)
    (hfront : ∀ kind, s'.loop ≠ .executed kind)
    (horder : s'.loop = .serving .killClient → s.queue .createDisplay = [])
    (hended : s'.loop = .idle false → ∀ kind, s.queue kind = [])
    (hbooting : s'.loop = .boot → s'.sRunning = true) : Inv s' where
  kept kind := by rw [hpushed, hposted, hqueue]; exact h.kept kind
  executed kind := by rw [hexecuted, hposted, hunderway]; exact h.executed kind
  once kind := by rw [hpushed]; exact h.once kind
  known kind := by rw [hpushed, hrequests]; exact h.known kind
  good i r hr := by
    rw [hrequests] at hr
    obtain ⟨h₁, h₂, h₃, h₄⟩ := h.good i r hr
    exact ⟨hpushed ▸ h₁, hposted ▸ h₂, hposted ▸ h₃, hexecuted ▸ h₄⟩
  front kind hk := absurd hk (hfront kind)
  order hk := by rw [hqueue]; exact horder (hk.resolve_right (hfront _))
  ended hk kind := by rw [hqueue]; exact hended hk kind
  booting := hbooting

theorem Inv.unpushed {i : Nat} (hi : s.requests i = none) (kind : Kind) :
    i ∉ s.pushed kind ∧ i ∉ s.posted kind ∧ ∀ b, (i, b) ∉ s.executed kind := by
  have hpushed : i ∉ s.pushed kind := by
    intro hp
    obtain ⟨r, hr, -⟩ := h.known kind i hp
    rw [hi] at hr
    cases hr
  have hposted : i ∉ s.posted kind := by
    intro hp
    apply hpushed
    rw [h.kept kind]
    exact List.mem_append_left _ hp
  refine ⟨hpushed, hposted, fun b hb => ?_⟩
  have hmem : i ∈ (s.executed kind).map Prod.fst := List.mem_map.mpr ⟨(i, b), hb, rfl⟩
  rw [h.executed kind] at hmem
  rcases List.mem_append.mp hmem with hp | hu
  · exact hposted hp
  · apply hpushed
    rw [h.kept kind]
    exact List.mem_append_right _ (underway_queue hu)

theorem Inv.push {i : Nat} {kind : Kind} (hi : s.requests i = none) (hfree : ¬ s.loop.locked)
    (hrunning : s.loop ≠ .idle false) : Inv (pushStep s i kind) := by
  have hloop : ∀ k, s.loop ≠ .serving k ∧ s.loop ≠ .executed k := by
    intro k
    refine ⟨fun hl => hfree ?_, fun hl => hfree ?_⟩ <;> rw [hl] <;> rfl
  have hpushed : ∀ k j, j ∈ s.pushed k → j ∈ (pushStep s i kind).pushed k := by
    intro k j hj
    show j ∈ Function.update s.pushed kind _ k
    by_cases hk : k = kind
    · subst hk
      rw [Function.update_self]
      exact List.mem_append_left _ hj
    · rwa [Function.update_of_ne hk]
  have hmem : i ∈ (pushStep s i kind).pushed kind := by
    show i ∈ Function.update s.pushed kind _ kind
    rw [Function.update_self]
    exact List.mem_append_right _ List.mem_cons_self
  refine ⟨fun k => ?_, fun k => ?_, fun k => ?_, fun k j hj => ?_, fun j r hr => ?_,
    fun k hk => absurd hk (hloop k).2, fun hk => absurd hk (not_or.mpr ⟨(hloop _).1, (hloop _).2⟩),
    fun hk => absurd hk hrunning, h.booting⟩
  · show Function.update s.pushed kind _ k = s.posted k ++ Function.update s.queue kind _ k
    by_cases hk : k = kind
    · subst hk
      rw [Function.update_self, Function.update_self, h.kept k, List.append_assoc]
    · rw [Function.update_of_ne hk, Function.update_of_ne hk, h.kept k]
  · have hnone : underway (pushStep s i kind) k = underway s k := by
      unfold underway
      rw [if_neg (hloop k).2]
      exact if_neg (hloop k).2
    rw [hnone]
    exact h.executed k
  · show (Function.update s.pushed kind _ k).Nodup
    by_cases hk : k = kind
    · subst hk
      rw [Function.update_self]
      refine List.nodup_append.mpr ⟨h.once k, List.nodup_singleton i, fun a ha b hb hab => ?_⟩
      obtain rfl := List.mem_singleton.mp hb
      exact (h.unpushed hi k).1 (hab ▸ ha)
    · rw [Function.update_of_ne hk]
      exact h.once k
  · by_cases hji : j = i
    · subst hji
      refine ⟨newRequest kind, Function.update_self _ _ _, ?_⟩
      by_contra hk
      have hold : j ∈ s.pushed k := by
        have hj' : j ∈ Function.update s.pushed kind _ k := hj
        have hne : k ≠ kind := fun e => hk e.symm
        rwa [Function.update_of_ne hne] at hj'
      exact (h.unpushed hi k).1 hold
    · have hold : j ∈ s.pushed k := by
        have hj' : j ∈ Function.update s.pushed kind _ k := hj
        by_cases hk : k = kind
        · subst hk
          rw [Function.update_self] at hj'
          exact (List.mem_append.mp hj').resolve_right fun hs => hji (List.mem_singleton.mp hs)
        · rwa [Function.update_of_ne hk] at hj'
      obtain ⟨r, hr, hkind⟩ := h.known k j hold
      exact ⟨r, by rw [← hr]; exact Function.update_of_ne hji _ _, hkind⟩
  · have hr' : Function.update s.requests i (some (newRequest kind)) j = some r := hr
    by_cases hji : j = i
    · subst hji
      rw [Function.update_self] at hr'
      obtain rfl := Option.some.inj hr'
      obtain ⟨-, hposted, hexecuted⟩ := h.unpushed hi kind
      exact ⟨hmem, (if_neg fun hc => hposted hc.1).symm, fun hn => absurd rfl hn,
        fun b hb => absurd hb (hexecuted b)⟩
    · rw [Function.update_of_ne hji] at hr'
      obtain ⟨h₁, h₂, h₃, h₄⟩ := h.good j r hr'
      exact ⟨hpushed _ j h₁, h₂, h₃, h₄⟩

/-- Steps that change one request, whatever its kind, and neither the pushed ones nor their order. -/
theorem Inv.known_modify {i : Nat} {f : Request → Request} (hf : ∀ r, (f r).kind = r.kind)
    (kind : Kind) (j : Nat) (hj : j ∈ s.pushed kind) :
    ∃ r, s.modify i f j = some r ∧ r.kind = kind := by
  obtain ⟨r, hr, hkind⟩ := h.known kind j hj
  unfold Shell.modify
  by_cases hji : j = i
  · subst hji
    exact ⟨f r, by rw [Function.update_self, hr]; rfl, (hf r).trans hkind⟩
  · exact ⟨r, by rw [Function.update_of_ne hji, hr], hkind⟩

theorem Inv.execute {kind : Kind} {i : Nat} {rest : List Nat} (hloop : s.loop = .serving kind)
    (hqueue : s.queue kind = i :: rest) (result : Bool) : Inv (executeStep s kind i result) := by
  obtain ⟨r₀, hr₀, hkind₀, hanswer₀, -⟩ := h.queued (hqueue ▸ List.mem_cons_self)
  have hidle : ∀ k, underway s k = [] := by
    intro k
    unfold underway
    rw [hloop]
    exact if_neg nofun
  have hexecuted : ∀ k, (s.executed k).map Prod.fst = s.posted k := by
    intro k
    rw [h.executed k, hidle k, List.append_nil]
  have hself : underway (executeStep s kind i result) kind = [i] := by
    show (if Loop.executed kind = .executed kind then (s.queue kind).take 1 else []) = [i]
    rw [if_pos rfl, hqueue]
    rfl
  have hother : ∀ k, k ≠ kind → underway (executeStep s kind i result) k = [] := by
    intro k hk
    exact if_neg fun he => hk (Loop.executed.inj he).symm
  refine ⟨h.kept, fun k => ?_, h.once, h.known_modify fun _ => rfl, fun j r hr => ?_,
    fun k hk => ?_, fun hk => ?_, nofun, nofun⟩
  · show (Function.update s.executed kind _ k).map Prod.fst = s.posted k ++ _
    by_cases hk : k = kind
    · subst hk
      rw [Function.update_self, hself, List.map_append, hexecuted k]
      rfl
    · rw [Function.update_of_ne hk, hother k hk, hexecuted k, List.append_nil]
  · have hr' : Function.update s.requests i _ j = some r := hr
    by_cases hji : j = i
    · subst hji
      rw [Function.update_self, hr₀] at hr'
      obtain rfl := Option.some.inj hr'
      obtain ⟨h₁, h₂, h₃, -⟩ := h.good j r₀ hr₀
      refine ⟨h₁, h₂, h₃, fun b hb => ⟨?_, .inl hanswer₀⟩⟩
      have hb' : (j, b) ∈ Function.update s.executed kind _ r₀.kind := hb
      rw [hkind₀, Function.update_self] at hb'
      rcases List.mem_append.mp hb' with hold | hnew
      · refine absurd ?_ (h.not_posted (hqueue ▸ List.mem_cons_self))
        rw [← hexecuted kind]
        exact List.mem_map.mpr ⟨(j, b), hold, rfl⟩
      · exact (Prod.mk.inj (List.mem_singleton.mp hnew)).2.symm
    · rw [Function.update_of_ne hji] at hr'
      obtain ⟨h₁, h₂, h₃, h₄⟩ := h.good j r hr'
      refine ⟨h₁, h₂, h₃, fun b hb => h₄ b ?_⟩
      have hb' : (j, b) ∈ Function.update s.executed kind _ r.kind := hb
      by_cases hk : r.kind = kind
      · rw [hk, Function.update_self] at hb'
        rw [hk]
        exact (List.mem_append.mp hb').resolve_right
          fun hs => hji (Prod.mk.inj (List.mem_singleton.mp hs)).1
      · rwa [Function.update_of_ne hk] at hb'
  · obtain rfl := Loop.executed.inj hk
    show s.queue kind ≠ []
    rw [hqueue]
    nofun
  · have hkill : Loop.executed kind = .executed .killClient := hk.resolve_left nofun
    obtain rfl := Loop.executed.inj hkill
    exact h.order (.inl hloop)

theorem Inv.post {kind : Kind} {i : Nat} {rest : List Nat} (hloop : s.loop = .executed kind)
    (hqueue : s.queue kind = i :: rest) : Inv (postStep s kind i rest) := by
  obtain ⟨r₀, hr₀, hkind₀, hanswer₀, hvalue₀⟩ := h.queued (hqueue ▸ List.mem_cons_self)
  have hidle : ∀ k, underway (postStep s kind i rest) k = [] := fun k => if_neg nofun
  have hposted : ∀ k j, j ∈ (postStep s kind i rest).posted k ↔
      j ∈ s.posted k ∨ (k = kind ∧ j = i) := by
    intro k j
    show j ∈ Function.update s.posted kind _ k ↔ _
    by_cases hk : k = kind
    · subst hk
      rw [Function.update_self, List.mem_append, List.mem_singleton]
      simp
    · rw [Function.update_of_ne hk]
      simp [hk]
  refine ⟨fun k => ?_, fun k => ?_, h.once, h.known_modify fun _ => rfl, fun j r hr => ?_,
    nofun, fun hk => ?_, nofun, nofun⟩
  · show s.pushed k = Function.update s.posted kind _ k ++ Function.update s.queue kind rest k
    by_cases hk : k = kind
    · subst hk
      rw [Function.update_self, Function.update_self, h.kept k, hqueue, List.append_assoc]
      rfl
    · rw [Function.update_of_ne hk, Function.update_of_ne hk, h.kept k]
  · rw [hidle k, List.append_nil]
    show (s.executed k).map Prod.fst = Function.update s.posted kind _ k
    rw [h.executed k]
    unfold underway
    by_cases hk : k = kind
    · subst hk
      rw [Function.update_self, if_pos hloop, hqueue]
      rfl
    · rw [Function.update_of_ne hk, if_neg fun he => hk (Loop.executed.inj (hloop.symm.trans he)).symm,
        List.append_nil]
  · have hr' : Function.update s.requests i _ j = some r := hr
    by_cases hji : j = i
    · subst hji
      rw [Function.update_self, hr₀] at hr'
      obtain rfl := Option.some.inj hr'
      obtain ⟨h₁, -, -, h₄⟩ := h.good j r₀ hr₀
      have hnow := (hposted r₀.kind j).mpr (.inr ⟨hkind₀, rfl⟩)
      refine ⟨h₁, ?_, fun _ => hnow, h₄⟩
      rw [if_pos ⟨hnow, hanswer₀⟩]
      show r₀.mSemaphore.value + 1 = 1
      omega
    · rw [Function.update_of_ne hji] at hr'
      obtain ⟨h₁, h₂, h₃, h₄⟩ := h.good j r hr'
      have hsame : j ∈ (postStep s kind i rest).posted r.kind ↔ j ∈ s.posted r.kind := by
        rw [hposted]
        simp [hji]
      refine ⟨h₁, ?_, fun hn => hsame.mpr (h₃ hn), h₄⟩
      rw [h₂]
      simp only [hsame]
  · have hkill : Loop.serving kind = .serving .killClient := hk.resolve_right nofun
    obtain rfl := Loop.serving.inj hkill
    show Function.update s.queue .killClient rest .createDisplay = []
    rw [Function.update_of_ne (by decide)]
    exact h.order (.inr hloop)

theorem Inv.nextQueue {kind : Kind} (hloop : s.loop = .serving kind) (hempty : s.queue kind = []) :
    Inv { s with loop := afterQueue s kind } := by
  have hidle : ∀ k, underway s k = [] := fun k => if_neg (by rw [hloop]; nofun)
  cases kind with
  | createDisplay =>
    refine h.move rfl rfl rfl rfl rfl (fun k => ?_) (fun k => nofun) (fun _ => hempty) nofun nofun
    rw [hidle k]
    exact if_neg nofun
  | killClient =>
    refine h.move rfl rfl rfl rfl rfl (fun k => ?_) (fun k => nofun) nofun (fun _ k => ?_) nofun
    · rw [hidle k]
      exact if_neg nofun
    · cases k with
      | createDisplay => exact h.order (.inl hloop)
      | killClient => exact hempty

theorem Inv.boot (hloop : s.loop = .boot) : Inv { s with loop := .idle s.sRunning } := by
  refine h.move rfl rfl rfl rfl rfl (fun k => ?_) (fun k => nofun) nofun (fun hk => ?_) nofun
  · unfold underway
    rw [hloop]
    rfl
  · have hrunning := Loop.idle.inj hk
    rw [h.booting hloop] at hrunning
    cases hrunning

theorem Inv.frame (hloop : s.loop = .idle true) : Inv { s with loop := .serving .createDisplay } := by
  refine h.move rfl rfl rfl rfl rfl (fun k => ?_) (fun k => nofun) nofun nofun nofun
  unfold underway
  rw [hloop]
  rfl

theorem Inv.wake {i : Nat} {r : Request} (hr : s.requests i = some r) (hwake : r.canWake) :
    Inv (wakeStep s i) := by
  obtain ⟨h₁, h₂, -, h₄⟩ := h.good i r hr
  have hcan : r.answer = none ∧ 0 < r.mSemaphore.value := by
    simpa [Request.canWake] using hwake
  have hposted : i ∈ s.posted r.kind := by
    by_contra hnot
    rw [if_neg fun hc => hnot hc.1] at h₂
    omega
  refine ⟨h.kept, h.executed, h.once, h.known_modify fun _ => rfl, fun j r' hr' => ?_, h.front,
    h.order, h.ended, h.booting⟩
  have hr'' : Function.update s.requests i _ j = some r' := hr'
  by_cases hji : j = i
  · subst hji
    rw [Function.update_self, hr] at hr''
    obtain rfl := Option.some.inj hr''
    refine ⟨h₁, ?_, fun _ => hposted, fun b hb => ⟨(h₄ b hb).1, .inr ?_⟩⟩
    · rw [if_neg fun hc => absurd hc.2 nofun]
      rw [if_pos ⟨hposted, hcan.1⟩] at h₂
      show r.mSemaphore.value - 1 = 0
      omega
    · exact congrArg some (h₄ b hb).1
  · rw [Function.update_of_ne hji] at hr''
    obtain ⟨g₁, g₂, g₃, g₄⟩ := h.good j r' hr''
    exact ⟨g₁, g₂, g₃, g₄⟩

/-- When the loop has ended nothing is left to clear. -/
theorem Inv.clear (hloop : s.loop = .idle false) : Inv (clearStep s) := by
  have hempty := h.ended hloop
  have hrequests : (clearStep s).requests = s.requests := by
    funext i
    refine if_neg fun hc => ?_
    rw [hempty, hempty] at hc
    rcases hc with hc | hc <;> cases hc
  have hqueue : (clearStep s).queue = s.queue := funext fun k => (hempty k).symm
  refine h.move hrequests hqueue rfl rfl rfl (fun k => ?_) (fun k hk => ?_) (fun hk => ?_)
    (fun _ => hempty) (fun hk => ?_)
  · unfold underway
    rw [hqueue]
    rfl
  all_goals
    have hk' := hloop.symm.trans hk
    cases hk'

end

theorem inv_next (s : Shell) (l : Label) (s' : Shell) (h : Inv s) (hok : InTime s l)
    (hs : next s l = some s') : Inv s' := by
  cases l with
  | push i kind =>
    simp only [next] at hs
    split at hs
    · rename_i hfree
      cases hs
      exact h.push hfree.1 hfree.2 hok
    · cases hs
  | boot =>
    simp only [next] at hs
    split at hs
    · rename_i hloop
      cases hs
      exact h.boot hloop
    · cases hs
  | frame =>
    simp only [next] at hs
    split at hs
    · rename_i hloop
      cases hs
      exact h.frame hloop
    · cases hs
  | execute result =>
    simp only [next] at hs
    split at hs
    · rename_i hloop
      split at hs
      · rename_i hqueue
        cases hs
        exact h.execute hloop hqueue result
      · cases hs
    · cases hs
  | post =>
    simp only [next] at hs
    split at hs
    · rename_i hloop
      split at hs
      · rename_i hqueue
        cases hs
        exact h.post hloop hqueue
      · cases hs
    · cases hs
  | nextQueue =>
    simp only [next] at hs
    split at hs
    · rename_i kind hloop
      split at hs
      · rename_i hempty
        cases hs
        exact h.nextQueue hloop hempty
      · cases hs
    · cases hs
  | wake i =>
    simp only [next] at hs
    split at hs
    · rename_i r hr
      split at hs
      · rename_i hwake
        cases hs
        exact h.wake hr hwake
      · cases hs
    · cases hs
  | stop =>
    simp only [next] at hs
    split at hs
    · rename_i hstop
      cases hs
      obtain ⟨-, hboot, hfree⟩ := hstop
      refine h.move rfl rfl rfl rfl rfl (fun k => rfl) (fun k hk => hfree ?_) (fun hk => absurd ?_ hfree)
        h.ended (fun hk => absurd hk hboot)
      · rw [show s.loop = .executed k from hk]
        rfl
      · rw [show s.loop = .serving .killClient from hk]
        rfl
    · cases hs
  | clear =>
    simp only [next] at hs
    split at hs
    · rename_i hclear
      cases hs
      exact h.clear hclear.2
    · cases hs

/-! ## nobody waits for ever -/

def rank : Loop → Nat
  | .boot => 5
  | .idle _ => 4
  | .serving .createDisplay => 3
  | .executed .createDisplay => 2
  | .serving .killClient => 1
  | .executed .killClient => 0

/-- the steps the loop still has to take, at most, for the requests now queued -/
def work (s : Shell) : Nat :=
  2 * ((s.queue .createDisplay).length + (s.queue .killClient).length) + rank s.loop

def Waits (i : Nat) (s : Shell) : Prop := ∃ r, s.requests i = some r ∧ r.answer = none

theorem waits_modify {s : Shell} {i j : Nat} {f : Request → Request}
    (hf : ∀ r, (f r).answer = r.answer) (h : Waits i s) :
    ∃ r, s.modify j f i = some r ∧ r.answer = none := by
  obtain ⟨r, hr, hanswer⟩ := h
  unfold Shell.modify
  by_cases hij : i = j
  · subst hij
    exact ⟨f r, by rw [Function.update_self, hr]; rfl, (hf r).trans hanswer⟩
  · exact ⟨r, by rw [Function.update_of_ne hij, hr], hanswer⟩

theorem work_post {s : Shell} {kind : Kind} {i : Nat} {rest : List Nat}
    (hloop : s.loop = .executed kind) (hqueue : s.queue kind = i :: rest) :
    work (postStep s kind i rest) < work s := by
  unfold work
  rw [hloop]
  show 2 * ((Function.update s.queue kind rest .createDisplay).length
    + (Function.update s.queue kind rest .killClient).length) + rank (.serving kind) < _
  cases kind with
  | createDisplay =>
    rw [Function.update_self, Function.update_of_ne (by decide), hqueue]
    simp [rank]
    omega
  | killClient =>
    rw [Function.update_self, Function.update_of_ne (by decide), hqueue]
    simp [rank]
    omega

/-- While a request is queued, the loop has a step to take that leaves less to do. -/
theorem loop_step {s : Shell} (h : Inv s) {i : Nat} {kind : Kind} (hi : i ∈ s.queue kind)
    (hw : Waits i s) :
    ∃ l s', l.ofLoop = true ∧ next s l = some s' ∧ (Inv s' ∧ Waits i s') ∧ work s' < work s := by
  cases hloop : s.loop with
  | boot =>
    have hs : next s .boot = some { s with loop := .idle s.sRunning } := if_pos hloop
    refine ⟨.boot, _, rfl, hs, ⟨inv_next _ .boot _ h trivial hs, hw⟩, ?_⟩
    simp [work, rank, hloop]
  | idle isRunning =>
    cases isRunning with
    | true =>
      have hs : next s .frame = some { s with loop := .serving .createDisplay } := if_pos hloop
      refine ⟨.frame, _, rfl, hs, ⟨inv_next _ .frame _ h trivial hs, hw⟩, ?_⟩
      simp [work, rank, hloop]
    | false =>
      rw [h.ended hloop kind] at hi
      cases hi
  | serving k =>
    cases hqueue : s.queue k with
    | cons j rest =>
      have hs := next_execute hloop hqueue false
      refine ⟨.execute false, _, rfl, hs, ⟨inv_next _ (.execute false) _ h trivial hs, waits_modify (fun _ => rfl) hw⟩, ?_⟩
      show 2 * ((s.queue .createDisplay).length + (s.queue .killClient).length)
        + rank (.executed k) < work s
      cases k <;> simp [work, rank, hloop]
    | nil =>
      have hs := next_nextQueue hloop hqueue
      cases k with
      | createDisplay =>
        refine ⟨.nextQueue, _, rfl, hs, ⟨inv_next _ .nextQueue _ h trivial hs, hw⟩, ?_⟩
        simp [work, rank, hloop, afterQueue]
      | killClient =>
        -- both queues are empty
        have hcreate := h.order (.inl hloop)
        cases kind with
        | createDisplay => rw [hcreate] at hi; cases hi
        | killClient => rw [hqueue] at hi; cases hi
  | executed k =>
    cases hqueue : s.queue k with
    | cons j rest =>
      have hs := next_post hloop hqueue
      exact ⟨.post, _, rfl, hs, ⟨inv_next _ .post _ h trivial hs, waits_modify (fun _ => rfl) hw⟩,
        work_post hloop hqueue⟩
    | nil => exact absurd hqueue (h.front k hloop)

/-- A caller is waiting and its semaphore is posted. -/
def Signalled (i : Nat) (s : Shell) : Prop := ∃ r, s.requests i = some r ∧ r.canWake = true

theorem Inv.signalled_or_queued {s : Shell} (h : Inv s) {i : Nat} (hw : Waits i s) :
    Signalled i s ∨ ∃ kind, i ∈ s.queue kind := by
  obtain ⟨r, hr, hanswer⟩ := hw
  have hgood := h.good i r hr
  by_cases hposted : i ∈ s.posted r.kind
  · have hvalue := hgood.value
    rw [if_pos ⟨hposted, hanswer⟩] at hvalue
    exact .inl ⟨r, hr, by simp [Request.canWake, hanswer, hvalue]⟩
  · have hpushed := hgood.pushed
    rw [h.kept r.kind] at hpushed
    exact .inr ⟨r.kind, (List.mem_append.mp hpushed).resolve_left hposted⟩

/-- **Every caller is released**, by the steps of the loop. -/
theorem Inv.releasable {s : Shell} (h : Inv s) {i : Nat} (hw : Waits i s) : Releasable s i := by
  have hstep : ∀ t, Inv t ∧ Waits i t → ¬ Signalled i t → ∃ l t', l.ofLoop = true ∧
      next t l = some t' ∧ (Inv t' ∧ Waits i t') ∧ work t' < work t := by
    intro t hI hgoal
    obtain ⟨kind, hi⟩ := (hI.1.signalled_or_queued hI.2).resolve_left hgoal
    exact loop_step hI.1 hi hI.2
  obtain ⟨ls, s₁, hls, hrun, r, hr, hcan⟩ := exists_run_of_measure work hstep s ⟨h, hw⟩
  have hwake := next_wake hr hcan
  have hr' : (wakeStep s₁ i).requests i = some { r with
      mSemaphore := { r.mSemaphore with value := r.mSemaphore.value - 1 }
      answer := some r.mResult } := by
    show Function.update s₁.requests i _ i = _
    rw [Function.update_self, hr]
    rfl
  refine ⟨ls ++ [.wake i], wakeStep s₁ i, _, ?_, run_append_eq_some.mpr ⟨s₁, hrun, ?_⟩, hr', nofun⟩
  · intro l hl
    rcases List.mem_append.mp hl with hl | hl
    · exact .inl (hls l hl)
    · exact .inr (List.mem_singleton.mp hl)
  · rw [run_single]
    exact hwake

theorem Inv.served {s : Shell} (h : Inv s) : Served s := by
  refine ⟨h.once, fun kind => ?_, fun kind => ?_, h.kept, fun kind i b hb => ?_,
    fun i r hr hanswer => h.releasable ⟨r, hr, hanswer⟩⟩
  · rw [h.executed kind, h.kept kind]
    apply (List.prefix_append_right_inj _).mpr
    unfold underway
    split
    · exact List.take_prefix 1 _
    · exact List.nil_prefix
  · rw [h.executed kind]
    exact List.prefix_append _ _
  · have hpushed : i ∈ s.pushed kind := by
      have hmem : i ∈ (s.executed kind).map Prod.fst := List.mem_map.mpr ⟨(i, b), hb, rfl⟩
      rw [h.executed kind] at hmem
      rw [h.kept kind]
      exact (List.mem_append.mp hmem).elim (List.mem_append_left _)
        fun hu => List.mem_append_right _ (underway_queue hu)
    obtain ⟨r, hr, rfl⟩ := h.known kind i hpushed
    exact ⟨r, hr, (h.good i r hr).result b hb⟩

/-! ## a request pushed too late -/

/-- The loop has ended and the semaphore of `i` is not posted. -/
def Stuck (i : Nat) (s : Shell) : Prop :=
  s.loop = .idle false ∧ ∃ r, s.requests i = some r ∧ r.answer = none ∧ r.mSemaphore.value = 0

theorem stuck_next {i : Nat} (s : Shell) (l : Label) (s' : Shell) (h : Stuck i s)
    (hs : next s l = some s') : Stuck i s' := by
  obtain ⟨hloop, r, hr, hanswer, hvalue⟩ := h
  cases l with
  | push j kind =>
    simp only [next] at hs
    split at hs
    · rename_i hfree
      cases hs
      have hij : i ≠ j := by
        intro heq
        obtain ⟨hnone, -⟩ := hfree
        rw [← heq, hr] at hnone
        cases hnone
      exact ⟨hloop, r, (Function.update_of_ne hij _ _).trans hr, hanswer, hvalue⟩
    · cases hs
  | wake j =>
    simp only [next] at hs
    split at hs
    · rename_i r' hr'
      split at hs
      · rename_i hwake
        cases hs
        have hij : i ≠ j := by
          rintro rfl
          obtain rfl := Option.some.inj (hr.symm.trans hr')
          simp [Request.canWake, hvalue] at hwake
        exact ⟨hloop, r, (Function.update_of_ne hij _ _).trans hr, hanswer, hvalue⟩
      · cases hs
    · cases hs
  | stop =>
    simp only [next] at hs
    split at hs
    · cases hs
      exact ⟨hloop, r, hr, hanswer, hvalue⟩
    · cases hs
  | clear =>
    simp only [next] at hs
    split at hs
    · cases hs
      by_cases hi : i ∈ s.queue .createDisplay ∨ i ∈ s.queue .killClient
      · exact ⟨hloop, { r with mSemaphore := sem_destroy r.mSemaphore },
          (if_pos hi).trans (by rw [hr]; rfl), hanswer, hvalue⟩
      · exact ⟨hloop, r, (if_neg hi).trans hr, hanswer, hvalue⟩
    · cases hs
  | boot | frame | execute result | post | nextQueue => simp [next, hloop] at hs

/-- **No step of anybody releases a caller that pushed after the loop had ended.** -/
theorem stuck_for_ever {i : Nat} {s : Shell} (h : Stuck i s) (ls : List Label) (s' : Shell)
    (hrun : run next s ls = some s') : ∃ r, s'.requests i = some r ∧ r.answer = none := by
  obtain ⟨-, r, hr, hanswer, -⟩ := run_invariant stuck_next h hrun
  exact ⟨r, hr, hanswer⟩

theorem Stuck.not_served {i : Nat} {s : Shell} (h : Stuck i s) : ¬ Served s := by
  intro hserved
  obtain ⟨r, hr, hanswer⟩ := stuck_for_ever h [] s rfl
  obtain ⟨ls, s', r', -, hrun, hr', hne⟩ := hserved.released i r hr hanswer
  obtain ⟨r'', hr'', hnone⟩ := stuck_for_ever h ls s' hrun
  obtain rfl := Option.some.inj (hr'.symm.trans hr'')
  exact hne hnone

theorem late_push_stuck (s : Shell) (l : Label) (s' : Shell) (hbad : ¬ InTime s l)
    (hs : next s l = some s') : ¬ Served s' := by
  cases l with
  | push i kind =>
    have hloop : s.loop = .idle false := not_not.mp hbad
    simp only [next] at hs
    split at hs
    · cases hs
      refine Stuck.not_served (i := i) ⟨hloop, newRequest kind, Function.update_self _ _ _, rfl, rfl⟩
    · cases hs
  | _ => exact absurd trivial hbad

/-- **Every request is served exactly once and its caller released, all along a run, exactly if no
request is pushed after the loop has ended.** -/
theorem requests_served {ls : List Label} {s : Shell} (hrun : run next .start ls = some s) :
    Always next Served .start ls ↔ Each next InTime .start ls :=
  always_iff_each (fun _ h => h.served) inv_next
    (fun s l s' _ => late_push_stuck s l s') inv_start hrun

/-- a request pushed before `Deinitialize`, which the last frame serves -/
theorem pushed_before_stop_served :
    Always next Served .start
      [.boot, .push 0 .createDisplay, .stop, .frame, .execute true, .post, .nextQueue, .nextQueue,
        .clear, .wake 0] := by
  apply (requests_served rfl).mpr
  refine each_cons_of rfl trivial (each_cons_of rfl nofun ?_)
  refine each_cons_of rfl trivial (each_cons_of rfl trivial (each_cons_of rfl trivial
    (each_cons_of rfl trivial (each_cons_of rfl trivial (each_cons_of rfl trivial
    (each_cons_of rfl trivial (each_cons_of rfl trivial (each_nil _ _))))))))

/-- A request pushed after the last frame leaves its queue in `Deinitialize`, unexecuted and its
semaphore not posted but destroyed, and nothing ever releases its caller. -/
theorem pushed_after_last_frame_stuck :
    ∃ s, run next .start [.boot, .stop, .frame, .nextQueue, .nextQueue, .push 0 .killClient, .clear]
        = some s ∧
      s.queue .killClient = [] ∧ s.pushed .killClient = [0] ∧ s.posted .killClient = [] ∧
      ¬ Served s ∧
      ∀ ls s', run next s ls = some s' → ∃ r, s'.requests 0 = some r ∧ r.answer = none := by
  have hstuck : ∀ s, s.loop = .idle false →
      s.requests 0 = some ⟨.killClient, false, ⟨0, true⟩, none⟩ → Stuck 0 s :=
    fun s hloop hr => ⟨hloop, _, hr, rfl, rfl⟩
  refine ⟨_, rfl, rfl, rfl, rfl, (hstuck _ rfl rfl).not_served, stuck_for_ever (hstuck _ rfl rfl)⟩

end RDKShell.RequestQueues
