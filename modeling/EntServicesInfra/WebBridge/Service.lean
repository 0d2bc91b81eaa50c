import EntServicesInfra.Lib.Journal
import EntServicesInfra.WebBridge.Bridge

/-!
# WebBridge: the channel of the JavaScript service

`attach` gives the slot `_javascriptService` to the first `json` channel, `detach` empties it
whichever channel it is called for.  The journal has each `attach` with what it returned, and each
`detach`.

* `Owned`           the slot is the channel that was accepted and has not been detached since;
* `Fair`            what is expected of an `attach` or `detach`;
* `Own`             only the channel in the slot is detached;
* `service_owned`   `Owned` and `Fair` hold all along a run exactly if every step is `Own`.
-/

namespace WebBridge
open Runs Journal

def ownership (s : Bridge) : Label → Option (Entry UInt32)
  | .attach channel protocol => some ⟨.add, channel, (attach s channel protocol).2⟩
  | .detach channel => some ⟨.remove, channel, true⟩
  | _ => none

/-- a bridge and what happened to the channels -/
abbrev Hosted := Bridge × List (Entry UInt32)

structure Owned (t : Hosted) : Prop where
  owner : ∀ channel, Added t.2 channel → t.1.javascriptService = channel
  free : (∀ channel, ¬ Added t.2 channel) → t.1.javascriptService = 0

/-- A service is accepted exactly when there is none, and only its own `detach` changes the slot. -/
def Fair (t : Hosted) : Label → Prop
  | .attach channel protocol =>
    (attach t.1 channel protocol).2 = true ↔
      protocol = "json" ∧ ∀ channel', ¬ Added t.2 channel'
  | .detach channel =>
    ¬ Added t.2 channel → (detach t.1 channel).javascriptService = t.1.javascriptService
  | _ => True

/-- The slot is empty or the channel's own; the service has no id that stands for an empty slot. -/
def Own (t : Hosted) : Label → Prop
  | .attach _ protocol => protocol = "json" → ¬ Added t.2 0
  | .detach channel => t.1.javascriptService = 0 ∨ t.1.javascriptService = channel
  | _ => True

/-! ## the slot -/

variable {T : Thunder} {s : Bridge} {journal : List (Entry UInt32)}

theorem attach_accepts {channel : UInt32} {protocol : String} :
    (attach s channel protocol).2 = true ↔ protocol = "json" ∧ s.javascriptService = 0 := by
  unfold attach
  by_cases h : protocol = "json" ∧ s.javascriptService = 0
  · rw [if_pos h]
    exact ⟨fun _ => h, fun _ => rfl⟩
  · rw [if_neg h]
    exact ⟨nofun, fun h' => absurd h' h⟩

theorem attach_accepted {channel : UInt32} {protocol : String}
    (h : (attach s channel protocol).2 = true) :
    (attach s channel protocol).1.javascriptService = channel := by
  unfold attach
  rw [if_pos (attach_accepts.mp h)]

theorem attach_refused {channel : UInt32} {protocol : String}
    (h : (attach s channel protocol).2 = false) : (attach s channel protocol).1 = s := by
  unfold attach
  rw [if_neg]
  intro hc
  rw [attach_accepts.mpr hc] at h
  cases h

/-- The other steps leave the slot alone. -/
theorem javascriptService_next {s' : Bridge} {l : Label} (hs : next T s l = some s')
    (hl : ownership s l = none) : s'.javascriptService = s.javascriptService := by
  cases l with
  | attach channel protocol => cases hl
  | detach channel => cases hl
  | invoke channelId m now =>
    obtain rfl := Option.some.inj hs
    rcases invoke_cases (T := T) s channelId m now with ⟨-, message, -, heq⟩ | ⟨_, -, heq⟩
    · rw [heq]
      rfl
    · rw [heq]
  | inbound m =>
    obtain rfl := Option.some.inj hs
    rcases inbound_cases (T := T) s m with ⟨_, heq⟩ | ⟨_, -, heq⟩ | ⟨id, request, -, -, heq⟩
    · rw [heq]
    · rw [heq]
    · rw [heq]
      split
      · rfl
      · rfl
  | cleanup now =>
    obtain rfl := Option.some.inj hs
    exact cleanup_javascriptService s now

/-! ## the runs -/

theorem Owned.attach (h : Owned (s, journal)) {channel : UInt32} {protocol : String}
    (hok : Own (s, journal) (.attach channel protocol)) :
    Owned ((WebBridge.attach s channel protocol).1,
      ⟨.add, channel, (WebBridge.attach s channel protocol).2⟩ :: journal) := by
  cases haccept : (WebBridge.attach s channel protocol).2 with
  | false =>
    rw [attach_refused haccept]
    constructor
    · intro c hc
      exact h.owner c ((added_cons_failed rfl).mp hc)
    · intro hnone
      exact h.free fun c hc => hnone c ((added_cons_failed rfl).mpr hc)
  | true =>
    obtain ⟨hjson, hslot⟩ := attach_accepts.mp haccept
    have hslot' : s.javascriptService = 0 := hslot
    constructor
    · intro c hc
      show (WebBridge.attach s channel protocol).1.javascriptService = c
      rw [attach_accepted haccept]
      rcases added_cons_add.mp hc with heq | hc
      · exact heq.symm
      · -- only a service with the id 0 leaves the slot empty
        have hzero : s.javascriptService = c := h.owner c hc
        rw [hslot'] at hzero
        subst hzero
        exact absurd hc (hok hjson)
    · intro hnone
      exact absurd (added_cons_add.mpr (.inl rfl)) (hnone channel)

theorem Owned.detach (h : Owned (s, journal)) {channel : UInt32}
    (hok : Own (s, journal) (.detach channel)) :
    Owned (WebBridge.detach s channel, ⟨.remove, channel, true⟩ :: journal) := by
  constructor
  · intro c hc
    obtain ⟨hne, hc⟩ := added_cons_remove.mp hc
    have hslot : s.javascriptService = c := h.owner c hc
    rcases hok with hempty | hown
    · exact hempty.symm.trans hslot
    · exact absurd (hslot.symm.trans hown) hne
  · exact fun _ => rfl

theorem Owned.step {t t' : Hosted} {l : Label} (h : Owned t) (hok : Own t l)
    (hs : recorded (next T) ownership t l = some t') : Owned t' := by
  obtain ⟨s, journal⟩ := t
  obtain ⟨s', journal'⟩ := t'
  obtain ⟨hnext, hjournal⟩ := recorded_eq_some.mp hs
  dsimp only at hnext hjournal
  subst hjournal
  have hframe : ownership s l = none → Owned (s', (ownership s l).toList ++ journal) := by
    intro hl
    rw [hl]
    have hslot := javascriptService_next hnext hl
    constructor
    · exact fun c hc => hslot.trans (h.owner c hc)
    · exact fun hnone => hslot.trans (h.free hnone)
  cases l with
  | attach channel protocol =>
    obtain rfl := Option.some.inj hnext
    exact h.attach hok
  | detach channel =>
    obtain rfl := Option.some.inj hnext
    exact h.detach hok
  | invoke channelId m now => exact hframe rfl
  | inbound m => exact hframe rfl
  | cleanup now => exact hframe rfl

/-- For a step from a slot that is right, `Fair` is `Own`. -/
theorem Owned.fair_iff {t : Hosted} (h : Owned t) (l : Label) : Fair t l ↔ Own t l := by
  cases l with
  | attach channel protocol =>
    show ((WebBridge.attach t.1 channel protocol).2 = true ↔ _) ↔ (protocol = "json" → _)
    rw [attach_accepts]
    constructor
    · intro hfair hjson hzero
      exact (hfair.mp ⟨hjson, h.owner 0 hzero⟩).2 0 hzero
    · intro hown
      refine and_congr_right fun hjson => ⟨fun hslot c hc => ?_, h.free⟩
      have hzero : (0 : UInt32) = c := hslot.symm.trans (h.owner c hc)
      subst hzero
      exact hown hjson hc
  | detach channel =>
    show (¬ Added t.2 channel → 0 = t.1.javascriptService) ↔ _
    constructor
    · intro hfair
      by_cases hc : Added t.2 channel
      · exact .inr (h.owner channel hc)
      · exact .inl (hfair hc).symm
    · intro hown hc
      rcases hown with hempty | hslot
      · exact hempty.symm
      · by_contra hne
        apply hne
        refine (h.free fun c hadded => ?_).symm
        have hcc : channel = c := hslot.symm.trans (h.owner c hadded)
        exact hc (hcc ▸ hadded)
  | invoke channelId m now => exact Iff.rfl
  | inbound m => exact Iff.rfl
  | cleanup now => exact Iff.rfl

/-- **The slot is the service's channel, and attaches and detaches are treated as expected, all along
a run exactly if only the channel in the slot is detached (and no service has the id 0 when another
one comes).** -/
theorem service_owned (T : Thunder) (callsign : String) (timeout : Option UInt16)
    (ls : List Label) :
    Always (recorded (next T) ownership) Owned (initialized T callsign timeout, []) ls ∧
        Each (recorded (next T) ownership) Fair (initialized T callsign timeout, []) ls ↔
      Each (recorded (next T) ownership) Own (initialized T callsign timeout, []) ls := by
  have hinit : Owned (initialized T callsign timeout, []) :=
    ⟨fun _ hadded => absurd hadded not_added_nil, fun _ => rfl⟩
  constructor
  · intro hboth
    obtain ⟨halways, hfair⟩ := hboth
    exact hfair.imp_of_always halways fun t l h => (h.fair_iff l).mp
  · intro hown
    have halways := always_of_each (fun _ _ _ h hok hs => h.step hok hs) hinit hown
    exact ⟨halways, hown.imp_of_always halways fun t l h => (h.fair_iff l).mpr⟩

/-- A second channel is refused and then detached: the service is lost. -/
theorem refused_channel_detached :
    ¬ Always (recorded (next plainThunder) ownership) Owned
      (initialized plainThunder "WebBridge" none, [])
      [.attach 5 "json", .attach 7 "json", .detach 7] := by
  intro h
  have hlast := h.last rfl
  exact absurd (hlast.owner 5 (by decide)) (by decide)

end WebBridge
