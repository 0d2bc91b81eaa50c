import EntServicesInfra.Lib.Mailbox
import EntServicesInfra.Lib.Runs
import Mathlib.Data.List.Forall2

/-!
# RDKShell: what the API leaves for the next frame

The API leaves its requests in flags and values; the render loop looks at them once in each frame.
The API and a frame of the loop hold `gRdkShellMutex`, so each call of the API is one step, and so is
a frame up to its screenshot.  `Capture` puts its storer into the list without the mutex, at any
moment while the frame hands out the image: there each look at the list is a step.

* `Served`                   of each kind the compositor gets the last request since the frame before;
* `screen_requests_served`   along every run, and nothing else is lost;
* `Right`                    the watermark that the next frame shows is the one last asked for;
* `right_iff`                it is exactly if no watermark is taken away before the frame that shows it;
* `Once`                     no storer gets two images for one call, and they get them in order;
* `Stored`, `Fresh`          each that has left the list got one, which was not taken before it came,
                             and none that came too late is about to get the one at hand;
* `captures_iff`             that is so exactly if none comes while an image is handed out, or between
                             its screenshot and that; and a storer waits in vain exactly if the
                             resolution is not known when its screenshot is taken.
-/

namespace ScreenRequests
open Runs Mailbox

/-- the calls of `CompositorController` -/
inductive Call where
  | setScreenResolution (width height : UInt32)
  | showFullScreenImage (path : String)
  | showWatermark
  | hideWatermark
  | showSplashScreen (displayTime : UInt32)
  | hideSplashScreen
  | screenShot
deriving DecidableEq, Repr

inductive Label where
  | setScreenResolution (w h : UInt32)
  | showFullScreenImage (path : String)
  /-- `hidden` is what `hideWatermark` returns -/
  | showWatermark (enable hidden : Bool)
  | showSplashLogo (displayTime : UInt32)
  | hideSplashLogo
  | getScreenshot
  /-- `Capture` puts the storer into the list -/
  | capture (storer : ℕ)
  /-- its call of `getScreenshotWrapper` -/
  | captureScreenshot (storer : ℕ)
  /-- a frame, up to its screenshot if it takes one -/
  | frame
  /-- whether `getScreenResolution` succeeds; then whether there are storers -/
  | look (known : Bool)
  /-- the next storer gets the image, or there is none -/
  | store
  | clear
deriving DecidableEq, Repr

/-- a storer, and the screenshots taken before it came or the number of the one it got -/
structure Capture where
  storer : ℕ
  shot : ℕ
deriving DecidableEq, Repr

/-- how far a frame has come that has taken a screenshot -/
inductive Handing where
  | taken
  /-- the loop over the storers is at the place `n` -/
  | storing (n : ℕ)
  /-- it has ended there -/
  | stored (n : ℕ)
deriving DecidableEq, Repr

structure Shell where
  receivedResolutionRequest : Bool
  resolutionWidth : UInt32
  resolutionHeight : UInt32
  receivedFullScreenImageRequest : Bool
  fullScreenImagePath : String
  receivedShowWatermarkRequest : Bool
  receivedShowSplashScreenRequest : Bool
  gSplashScreenDisplayTime : UInt32
  needsScreenshot : Bool
  handing : Option Handing
  /-- the storers, with the screenshots taken before they came -/
  mCaptureStorers : List Capture
  /-- the storers whose `Capture` has not come to the screenshot -/
  asking : List ℕ
  /-- whether the watermark is on the screen, and was last asked to be; history -/
  watermark : Bool
  wanted : Bool
  /-- the screenshots taken; history -/
  shots : ℕ
  captured : List Capture
  stored : List Capture
  calls : List Call
  log : List Label

def start : Shell :=
  ⟨false, 1280, 720, false, "", false, false, 0, false, none, [], [], false, false, 0, [], [], [], []⟩

/-- the calls of a frame, in the order of the loop -/
def frameCalls (s : Shell) : List Call :=
  (if s.receivedResolutionRequest then
    [.setScreenResolution s.resolutionWidth s.resolutionHeight] else []) ++
  (if s.receivedFullScreenImageRequest then [.showFullScreenImage s.fullScreenImagePath] else []) ++
  (if s.receivedShowWatermarkRequest then [.showWatermark] else []) ++
  (if s.receivedShowSplashScreenRequest then
    [.showSplashScreen s.gSplashScreenDisplayTime] else []) ++
  (if s.needsScreenshot then [.screenShot] else [])

def frame (s : Shell) : Shell :=
  { s with
    calls := s.calls ++ frameCalls s
    receivedResolutionRequest := false
    fullScreenImagePath := if s.receivedFullScreenImageRequest then "" else s.fullScreenImagePath
    receivedFullScreenImageRequest := false
    watermark := s.watermark || s.receivedShowWatermarkRequest
    receivedShowWatermarkRequest := false
    gSplashScreenDisplayTime :=
      if s.receivedShowSplashScreenRequest then 0 else s.gSplashScreenDisplayTime
    receivedShowSplashScreenRequest := false
    shots := if s.needsScreenshot then s.shots + 1 else s.shots
    handing := if s.needsScreenshot then some .taken else none }

/-- the end of a frame with a screenshot -/
def done (s : Shell) : Shell := { s with needsScreenshot := false, handing := none }

def look (s : Shell) (known : Bool) : Shell :=
  if known ∧ s.mCaptureStorers ≠ [] then { s with handing := some (.storing 0) } else done s

def store (s : Shell) (n : ℕ) : Shell :=
  match s.mCaptureStorers[n]? with
  | some c => { s with stored := s.stored ++ [⟨c.storer, s.shots⟩], handing := some (.storing (n + 1)) }
  | none => { s with handing := some (.stored n) }

def showWatermark (s : Shell) (enable hidden : Bool) : Shell :=
  if enable then { s with receivedShowWatermarkRequest := true, wanted := true }
  else { s with
    calls := s.calls ++ [.hideWatermark]
    watermark := if hidden then false else s.watermark
    wanted := if hidden then false else s.wanted }

/-- a step that holds the mutex from its begin to its end, or to its screenshot -/
def locked (s : Shell) : Label → Option Shell
  | .setScreenResolution w h => some { s with
      receivedResolutionRequest := true, resolutionWidth := w, resolutionHeight := h }
  | .showFullScreenImage path => some { s with
      fullScreenImagePath := path, receivedFullScreenImageRequest := true }
  | .showWatermark enable hidden => some (showWatermark s enable hidden)
  | .showSplashLogo displayTime => some { s with
      gSplashScreenDisplayTime := displayTime, receivedShowSplashScreenRequest := true }
  | .hideSplashLogo => some { s with calls := s.calls ++ [.hideSplashScreen] }
  | .getScreenshot => some { s with needsScreenshot := true }
  | .captureScreenshot storer =>
    if storer ∈ s.asking then
      some { s with needsScreenshot := true, asking := s.asking.erase storer }
    else none
  | .frame => some (frame s)
  | _ => none

/-- a step that takes no mutex, or comes while the frame holds it -/
def within (s : Shell) : Label → Option Shell
  | .capture storer => some { s with
      mCaptureStorers := s.mCaptureStorers ++ [⟨storer, s.shots⟩]
      asking := storer :: s.asking
      captured := s.captured ++ [⟨storer, s.shots⟩] }
  | .look known => if s.handing = some .taken then some (look s known) else none
  | .store =>
    match s.handing with
    | some (.storing n) => some (store s n)
    | _ => none
  | .clear =>
    match s.handing with
    | some (.stored _) => some { done s with mCaptureStorers := [] }
    | _ => none
  | _ => none

/-- a step, without its place in the history -/
def step (s : Shell) (l : Label) : Option Shell :=
  (within s l).or (if s.handing = none then locked s l else none)

def next (s : Shell) (l : Label) : Option Shell :=
  (step s l).map fun s' => { s' with log := s.log ++ [l] }

/-! ## what is expected of the requests -/

/-- a kind of request: which steps leave one, which call serves it, and what waits to be served -/
structure Kind (α : Type) where
  request : Label → Option (Op α)
  call : Call → Option α
  slot : Shell → Option α

/-- a request, or the look of a frame -/
def asked {α : Type} (request : Label → Option α) (l : Label) : Option (Op α) :=
  match l with
  | .frame => some .take
  | l => (request l).map .put

def resolution : Kind (UInt32 × UInt32) where
  request := asked fun
    | .setScreenResolution w h => some (w, h)
    | _ => none
  call
    | .setScreenResolution width height => some (width, height)
    | _ => none
  slot s := if s.receivedResolutionRequest then some (s.resolutionWidth, s.resolutionHeight)
    else none

def fullScreenImage : Kind String where
  request := asked fun
    | .showFullScreenImage path => some path
    | _ => none
  call
    | .showFullScreenImage path => some path
    | _ => none
  slot s := if s.receivedFullScreenImageRequest then some s.fullScreenImagePath else none

def watermark : Kind Unit where
  request := asked fun
    | .showWatermark true _ => some ()
    | _ => none
  call
    | .showWatermark => some ()
    | _ => none
  slot s := if s.receivedShowWatermarkRequest then some () else none

def splashScreen : Kind UInt32 where
  request := asked fun
    | .showSplashLogo displayTime => some displayTime
    | _ => none
  call
    | .showSplashScreen displayTime => some displayTime
    | _ => none
  slot s := if s.receivedShowSplashScreenRequest then some s.gSplashScreenDisplayTime else none

def screenshot : Kind Unit where
  request := asked fun
    | .getScreenshot => some ()
    | .captureScreenshot _ => some ()
    | _ => none
  call
    | .screenShot => some ()
    | _ => none
  -- a request whose screenshot has been taken waits no more
  slot s := if s.needsScreenshot ∧ s.handing = none then some () else none

variable {α : Type}

/-- the requests of a kind and the looks of the frames so far -/
def Kind.ops (kind : Kind α) (s : Shell) : List (Op α) := s.log.filterMap kind.request

/-- Each frame passes on the last request since the frame before, and what waits is the last one since
the last frame. -/
structure Kind.Passed (kind : Kind α) (s : Shell) : Prop where
  calls : s.calls.filterMap kind.call = taken (kind.ops s)
  slot : kind.slot s = held (kind.ops s)

/-- **Of each kind the last request since the frame before.** -/
structure Served (s : Shell) : Prop where
  resolution : resolution.Passed s
  fullScreenImage : fullScreenImage.Passed s
  watermark : watermark.Passed s
  splashScreen : splashScreen.Passed s
  screenshot : screenshot.Passed s

/-! ## one step for one kind -/

/-- what a step has to do with a kind -/
def Kind.Follows (kind : Kind α) (l : Label) (s s' : Shell) : Prop :=
  ∃ calls, s'.calls = s.calls ++ calls ∧
    match kind.request l with
    | none => calls.filterMap kind.call = [] ∧ kind.slot s' = kind.slot s
    | some (.put value) => calls.filterMap kind.call = [] ∧ kind.slot s' = some value
    | some .take => calls.filterMap kind.call = (kind.slot s).toList ∧ kind.slot s' = none

variable {kind : Kind α} {s s' : Shell} {l : Label}

theorem Kind.Passed.follow (h : kind.Passed s) (hlog : s'.log = s.log ++ [l])
    (hfollows : kind.Follows l s s') : kind.Passed s' := by
  obtain ⟨calls, hcalls, hstep⟩ := hfollows
  have hops : kind.ops s' = kind.ops s ++ (kind.request l).toList := by
    unfold Kind.ops
    rw [hlog, List.filterMap_append, List.filterMap_cons]
    cases kind.request l <;> rfl
  have hall : s'.calls.filterMap kind.call = taken (kind.ops s) ++ calls.filterMap kind.call := by
    rw [hcalls, List.filterMap_append, h.calls]
  cases hrequest : kind.request l with
  | none =>
    rw [hrequest] at hstep hops
    obtain ⟨hnone, hslot⟩ := hstep
    rw [Option.toList_none, List.append_nil] at hops
    refine ⟨?_, ?_⟩
    · rw [hall, hnone, hops, List.append_nil]
    · rw [hslot, hops, h.slot]
  | some op =>
    rw [hrequest, Option.toList_some] at hops
    rw [hrequest] at hstep
    cases op with
    | put value =>
      obtain ⟨hnone, hslot⟩ := hstep
      refine ⟨?_, ?_⟩
      · rw [hall, hnone, hops, taken_put, List.append_nil]
      · rw [hslot, hops, held_put]
    | take =>
      obtain ⟨htaken, hslot⟩ := hstep
      refine ⟨?_, ?_⟩
      · rw [hall, htaken, hops, taken_take, h.slot]
      · rw [hslot, hops, held_take]

theorem step_of_next (hs : next s l = some s') :
    ∃ t, step s l = some t ∧ s' = { t with log := s.log ++ [l] } := by
  obtain ⟨t, ht, heq⟩ := Option.map_eq_some_iff.mp hs
  exact ⟨t, ht, heq.symm⟩

/-- What a step is. -/
theorem step_cases (hs : step s l = some s') :
    within s l = some s' ∨ s.handing = none ∧ locked s l = some s' := by
  rcases Option.or_eq_some_iff.mp hs with hwithin | ⟨-, hlocked⟩
  · exact .inl hwithin
  · split at hlocked
    case isTrue hnone => exact .inr ⟨hnone, hlocked⟩
    case isFalse => cases hlocked

theorem within_look {known : Bool} (hs : within s (.look known) = some s') :
    s.handing = some .taken ∧ s' = look s known := by
  simp only [within] at hs
  split at hs
  case isTrue htaken => exact ⟨htaken, (Option.some.inj hs).symm⟩
  case isFalse => cases hs

theorem within_store (hs : within s .store = some s') :
    ∃ n, s.handing = some (.storing n) ∧ s' = store s n := by
  simp only [within] at hs
  split at hs
  case h_1 n hstoring => exact ⟨n, hstoring, (Option.some.inj hs).symm⟩
  case h_2 => cases hs

theorem within_clear (hs : within s .clear = some s') :
    ∃ n, s.handing = some (.stored n) ∧ s' = { done s with mCaptureStorers := [] } := by
  simp only [within] at hs
  split at hs
  case h_1 n hstored => exact ⟨n, hstored, (Option.some.inj hs).symm⟩
  case h_2 => cases hs

theorem locked_captureScreenshot {storer : ℕ}
    (hs : locked s (.captureScreenshot storer) = some s') :
    s' = { s with needsScreenshot := true, asking := s.asking.erase storer } := by
  dsimp only [locked] at hs
  split at hs
  case isTrue => exact (Option.some.inj hs).symm
  case isFalse => cases hs

/-- after a frame no request waits -/
structure Idle (s : Shell) : Prop where
  resolution : s.receivedResolutionRequest = false
  fullScreenImage : s.receivedFullScreenImageRequest = false
  watermark : s.receivedShowWatermarkRequest = false
  splashScreen : s.receivedShowSplashScreenRequest = false
  screenshot : ¬ (s.needsScreenshot ∧ s.handing = none)

theorem frame_idle (s : Shell) : Idle (frame s) where
  resolution := rfl
  fullScreenImage := rfl
  watermark := rfl
  splashScreen := rfl
  screenshot := by
    rintro ⟨hneeds, hnone⟩
    replace hneeds : s.needsScreenshot = true := hneeds
    replace hnone : (if s.needsScreenshot then some Handing.taken else none) = none := hnone
    rw [if_pos hneeds] at hnone
    cases hnone

/-- a frame, for a kind whose calls are those of its slot -/
theorem follows_frame (hrequest : kind.request .frame = some .take)
    (hcalls : (frameCalls s).filterMap kind.call = (kind.slot s).toList)
    (hslot : ∀ t, Idle t → kind.slot t = none) : kind.Follows .frame s (frame s) := by
  refine ⟨frameCalls s, rfl, ?_⟩
  rw [hrequest]
  exact ⟨hcalls, hslot _ (frame_idle s)⟩

/-- a step without calls -/
theorem follows_quiet (hcalls : s'.calls = s.calls)
    (h : match kind.request l with
      | none => kind.slot s' = kind.slot s
      | some (.put value) => kind.slot s' = some value
      | some .take => False) : kind.Follows l s s' := by
  refine ⟨[], by rw [hcalls, List.append_nil], ?_⟩
  cases hrequest : kind.request l with
  | none =>
    rw [hrequest] at h
    exact ⟨rfl, h⟩
  | some op =>
    rw [hrequest] at h
    cases op with
    | put value => exact ⟨rfl, h⟩
    | take => exact h.elim

/-- a call of the API itself, which is none of the kind -/
theorem follows_call {call : Call} (hcalls : s'.calls = s.calls ++ [call])
    (hrequest : kind.request l = none) (hcall : kind.call call = none)
    (hslot : kind.slot s' = kind.slot s) : kind.Follows l s s' := by
  refine ⟨[call], hcalls, ?_⟩
  rw [hrequest]
  refine ⟨?_, hslot⟩
  rw [List.filterMap_cons, hcall]
  rfl

theorem filterMap_block (f : Call → Option α) (c : Bool) (call : Call) :
    (if c then [call] else []).filterMap f = if c then (f call).toList else [] := by
  cases c with
  | false => rfl
  | true =>
    show [call].filterMap f = (f call).toList
    rw [List.filterMap_cons]
    cases f call <;> rfl

theorem toList_slot (c : Bool) (value : α) :
    (if c then some value else none).toList = if c then [value] else [] := by
  cases c <;> rfl

/-- The calls of a frame, kind by kind. -/
theorem filterMap_frameCalls (f : Call → Option α) (s : Shell) :
    (frameCalls s).filterMap f =
      (if s.receivedResolutionRequest then
        (f (.setScreenResolution s.resolutionWidth s.resolutionHeight)).toList else []) ++
      (if s.receivedFullScreenImageRequest then
        (f (.showFullScreenImage s.fullScreenImagePath)).toList else []) ++
      (if s.receivedShowWatermarkRequest then (f .showWatermark).toList else []) ++
      (if s.receivedShowSplashScreenRequest then
        (f (.showSplashScreen s.gSplashScreenDisplayTime)).toList else []) ++
      (if s.needsScreenshot then (f .screenShot).toList else []) := by
  unfold frameCalls
  simp only [List.filterMap_append, filterMap_block]

/-- the step does to each kind what it should -/
structure FollowsAll (l : Label) (s s' : Shell) : Prop where
  resolution : resolution.Follows l s s'
  fullScreenImage : fullScreenImage.Follows l s s'
  watermark : watermark.Follows l s s'
  splashScreen : splashScreen.Follows l s s'
  screenshot : screenshot.Follows l s s'

theorem FollowsAll.frame (hnone : s.handing = none) : FollowsAll .frame s (frame s) where
  resolution := by
    refine follows_frame rfl ?_ fun t ht => if_neg (ne_true_of_eq_false ht.resolution)
    rw [filterMap_frameCalls]
    simp [ScreenRequests.resolution, toList_slot]
  fullScreenImage := by
    refine follows_frame rfl ?_ fun t ht => if_neg (ne_true_of_eq_false ht.fullScreenImage)
    rw [filterMap_frameCalls]
    simp [ScreenRequests.fullScreenImage, toList_slot]
  watermark := by
    refine follows_frame rfl ?_ fun t ht => if_neg (ne_true_of_eq_false ht.watermark)
    rw [filterMap_frameCalls]
    simp [ScreenRequests.watermark, toList_slot]
  splashScreen := by
    refine follows_frame rfl ?_ fun t ht => if_neg (ne_true_of_eq_false ht.splashScreen)
    rw [filterMap_frameCalls]
    simp [ScreenRequests.splashScreen, toList_slot]
  screenshot := by
    refine follows_frame rfl ?_ fun t ht => if_neg ht.screenshot
    rw [filterMap_frameCalls]
    simp [ScreenRequests.screenshot, toList_slot, hnone]

theorem FollowsAll.locked (hnone : s.handing = none) (hs : locked s l = some s') :
    FollowsAll l s s' := by
  cases l with
  | setScreenResolution w h =>
    obtain rfl := Option.some.inj hs
    constructor <;> exact follows_quiet rfl rfl
  | showFullScreenImage path =>
    obtain rfl := Option.some.inj hs
    constructor <;> exact follows_quiet rfl rfl
  | showWatermark enable hidden =>
    obtain rfl := Option.some.inj hs
    cases enable with
    | true =>
      constructor <;> exact follows_quiet rfl rfl
    | false =>
      constructor <;> exact follows_call rfl rfl rfl rfl
  | showSplashLogo displayTime =>
    obtain rfl := Option.some.inj hs
    constructor <;> exact follows_quiet rfl rfl
  | hideSplashLogo =>
    obtain rfl := Option.some.inj hs
    constructor <;> exact follows_call rfl rfl rfl rfl
  | getScreenshot =>
    obtain rfl := Option.some.inj hs
    exact ⟨follows_quiet rfl rfl, follows_quiet rfl rfl, follows_quiet rfl rfl,
      follows_quiet rfl rfl, follows_quiet rfl (if_pos ⟨rfl, hnone⟩)⟩
  | captureScreenshot storer =>
    obtain rfl := locked_captureScreenshot hs
    exact ⟨follows_quiet rfl rfl, follows_quiet rfl rfl, follows_quiet rfl rfl,
      follows_quiet rfl rfl, follows_quiet rfl (if_pos ⟨rfl, hnone⟩)⟩
  | frame =>
    obtain rfl := Option.some.inj hs
    exact FollowsAll.frame hnone
  | capture storer => cases hs
  | look known => cases hs
  | store => cases hs
  | clear => cases hs

/-- Only the screenshot that was taken has been dealt with. -/
structure Handed (s t : Shell) : Prop where
  rest : t = { s with
    needsScreenshot := t.needsScreenshot
    handing := t.handing
    mCaptureStorers := t.mCaptureStorers
    stored := t.stored }
  before : s.handing ≠ none
  after : t.needsScreenshot = false ∨ t.handing ≠ none

/-- The storers get the image without any request. -/
theorem Handed.followsAll (h : Handed s s') (hl : l = .store ∨ l = .clear ∨ ∃ known, l = .look known) :
    FollowsAll l s s' := by
  have hcalls : s'.calls = s.calls := by rw [h.rest]
  have hbefore : screenshot.slot s = none := if_neg fun hwaits => h.before hwaits.2
  have hafter : screenshot.slot s' = none := by
    refine if_neg fun hwaits => ?_
    rcases h.after with hneeds | hhanding
    · exact Bool.false_ne_true (hneeds.symm.trans hwaits.1)
    · exact hhanding hwaits.2
  have hscreenshot : screenshot.slot s' = screenshot.slot s := hafter.trans hbefore.symm
  have hresolution : resolution.slot s' = resolution.slot s := by
    rw [h.rest]
    rfl
  have himage : fullScreenImage.slot s' = fullScreenImage.slot s := by
    rw [h.rest]
    rfl
  have hwatermark : watermark.slot s' = watermark.slot s := by
    rw [h.rest]
    rfl
  have hsplash : splashScreen.slot s' = splashScreen.slot s := by
    rw [h.rest]
    rfl
  rcases hl with rfl | rfl | ⟨known, rfl⟩ <;>
    exact ⟨follows_quiet hcalls hresolution, follows_quiet hcalls himage,
      follows_quiet hcalls hwatermark, follows_quiet hcalls hsplash,
      follows_quiet hcalls hscreenshot⟩

theorem handed_look (htaken : s.handing = some .taken) (known : Bool) :
    Handed s (look s known) := by
  have hbefore : s.handing ≠ none := by
    rw [htaken]
    exact nofun
  unfold look
  split
  · exact ⟨rfl, hbefore, .inr nofun⟩
  · exact ⟨rfl, hbefore, .inl rfl⟩

theorem handed_store {n : ℕ} (hstoring : s.handing = some (.storing n)) :
    Handed s (store s n) := by
  have hbefore : s.handing ≠ none := by
    rw [hstoring]
    exact nofun
  unfold store
  split
  · exact ⟨rfl, hbefore, .inr nofun⟩
  · exact ⟨rfl, hbefore, .inr nofun⟩

theorem FollowsAll.step (hs : step s l = some s') : FollowsAll l s s' := by
  rcases step_cases hs with hwithin | ⟨hnone, hlocked⟩
  case inr => exact FollowsAll.locked hnone hlocked
  case inl =>
    cases l with
    | capture storer =>
      obtain rfl := Option.some.inj hwithin
      constructor <;> exact follows_quiet rfl rfl
    | look known =>
      obtain ⟨htaken, rfl⟩ := within_look hwithin
      exact (handed_look htaken known).followsAll (.inr (.inr ⟨known, rfl⟩))
    | store =>
      obtain ⟨n, hstoring, rfl⟩ := within_store hwithin
      exact (handed_store hstoring).followsAll (.inl rfl)
    | clear =>
      obtain ⟨n, hstored, rfl⟩ := within_clear hwithin
      have hhanded : Handed s { done s with mCaptureStorers := [] } :=
        ⟨rfl, by rw [hstored]; exact nofun, .inl rfl⟩
      exact hhanded.followsAll (.inr (.inl rfl))
    | _ => cases hwithin

/-! ## the runs -/

/-- The place in the history is none of the rest. -/
theorem Kind.Follows.logged {t : Shell} {log : List Label} (h : kind.Follows l s t)
    (hslot : kind.slot { t with log := log } = kind.slot t) :
    kind.Follows l s { t with log := log } := by
  obtain ⟨calls, hcalls, hstep⟩ := h
  refine ⟨calls, hcalls, ?_⟩
  rw [hslot]
  exact hstep

theorem served_next (s : Shell) (l : Label) (s' : Shell) (h : Served s) (hs : next s l = some s') :
    Served s' := by
  obtain ⟨t, ht, rfl⟩ := step_of_next hs
  have hfollows := FollowsAll.step ht
  exact ⟨h.resolution.follow rfl (hfollows.resolution.logged rfl),
    h.fullScreenImage.follow rfl (hfollows.fullScreenImage.logged rfl),
    h.watermark.follow rfl (hfollows.watermark.logged rfl),
    h.splashScreen.follow rfl (hfollows.splashScreen.logged rfl),
    h.screenshot.follow rfl (hfollows.screenshot.logged rfl)⟩

theorem served_start : Served start :=
  ⟨⟨rfl, rfl⟩, ⟨rfl, rfl⟩, ⟨rfl, rfl⟩, ⟨rfl, rfl⟩, ⟨rfl, rfl⟩⟩

/-- No two requests of the kind came between two frames. -/
def Kind.Spaced (kind : Kind α) (s : Shell) : Prop :=
  ∀ round ∈ (rounds (kind.ops s)).all, round.length ≤ 1

/-- Every request of the kind is served, in order, or waits for the next frame. -/
def Kind.AllServed (kind : Kind α) (s : Shell) : Prop :=
  s.calls.filterMap kind.call ++ (kind.slot s).toList = puts (kind.ops s)

theorem Kind.Passed.allServed_iff (h : kind.Passed s) : kind.AllServed s ↔ kind.Spaced s := by
  unfold Kind.AllServed
  rw [h.calls, h.slot]
  exact kept_iff _

/-- **The requests of a run.**  Of each kind the compositor is called with the last request since the
frame before, with no request twice and with no value that is out of date; and with every request
exactly if no two of them came between two frames. -/
theorem screen_requests_served {ls : List Label} {s : Shell} (hrun : run next start ls = some s) :
    Served s ∧ (resolution.AllServed s ↔ resolution.Spaced s) ∧
      (fullScreenImage.AllServed s ↔ fullScreenImage.Spaced s) ∧
      (watermark.AllServed s ↔ watermark.Spaced s) ∧
      (splashScreen.AllServed s ↔ splashScreen.Spaced s) ∧
      (screenshot.AllServed s ↔ screenshot.Spaced s) := by
  have hserved : Served s := run_invariant served_next served_start hrun
  exact ⟨hserved, hserved.resolution.allServed_iff, hserved.fullScreenImage.allServed_iff,
    hserved.watermark.allServed_iff, hserved.splashScreen.allServed_iff,
    hserved.screenshot.allServed_iff⟩

/-- Two resolutions are asked for before a frame: the compositor gets the second. -/
def twoResolutions : List Label :=
  [.setScreenResolution 1280 720, .setScreenResolution 1920 1080, .showFullScreenImage "a.png",
    .frame, .frame]

theorem two_resolutions_first_lost :
    ∃ s, run next start twoResolutions = some s ∧
      s.calls = [.setScreenResolution 1920 1080, .showFullScreenImage "a.png"] ∧
      Served s ∧ ¬ resolution.AllServed s := by
  refine ⟨_, rfl, rfl, ?_⟩
  obtain ⟨hserved, hall, -⟩ :=
    screen_requests_served (show run next start twoResolutions = some _ from rfl)
  refine ⟨hserved, fun h => ?_⟩
  exact absurd (hall.mp h) (by unfold Kind.Spaced; decide)

/-! ## the watermark -/

/-- **What the next frame shows is what was last asked for.** -/
def Right (s : Shell) : Prop := (s.watermark || s.receivedShowWatermarkRequest) = s.wanted

/-- No watermark is taken away that no frame has shown. -/
def Shown (s : Shell) : Label → Prop
  | .showWatermark false true => s.receivedShowWatermarkRequest = false
  | _ => True

instance decidableShown (s : Shell) : ∀ l, Decidable (Shown s l)
  | .showWatermark false true => inferInstanceAs (Decidable (_ = _))
  | .showWatermark false false => .isTrue trivial
  | .showWatermark true _ => .isTrue trivial
  | .setScreenResolution _ _ => .isTrue trivial
  | .showFullScreenImage _ => .isTrue trivial
  | .showSplashLogo _ => .isTrue trivial
  | .hideSplashLogo => .isTrue trivial
  | .getScreenshot => .isTrue trivial
  | .capture _ => .isTrue trivial
  | .captureScreenshot _ => .isTrue trivial
  | .frame => .isTrue trivial
  | .look _ => .isTrue trivial
  | .store => .isTrue trivial
  | .clear => .isTrue trivial

theorem Handed.right_congr (h : Handed s s') : Right s' ↔ Right s := by
  unfold Right
  rw [h.rest]

/-- Other steps than those of the watermark leave it as it is, for the next frame or on the screen. -/
theorem right_step (hs : step s l = some s') (hl : ∀ enable hidden, l ≠ .showWatermark enable hidden) :
    Right s' ↔ Right s := by
  rcases step_cases hs with hwithin | ⟨-, hlocked⟩
  case inl =>
    cases l with
    | capture storer =>
      obtain rfl := Option.some.inj hwithin
      rfl
    | look known =>
      obtain ⟨htaken, rfl⟩ := within_look hwithin
      exact (handed_look htaken known).right_congr
    | store =>
      obtain ⟨n, hstoring, rfl⟩ := within_store hwithin
      exact (handed_store hstoring).right_congr
    | clear =>
      obtain ⟨n, -, rfl⟩ := within_clear hwithin
      rfl
    | _ => cases hwithin
  case inr =>
    cases l with
    | showWatermark enable hidden => exact absurd rfl (hl enable hidden)
    | captureScreenshot storer =>
      obtain rfl := locked_captureScreenshot hlocked
      rfl
    | frame =>
      obtain rfl := Option.some.inj hlocked
      show ((s.watermark || s.receivedShowWatermarkRequest) || false) = s.wanted ↔ Right s
      rw [Bool.or_false]
      rfl
    | capture storer => cases hlocked
    | look known => cases hlocked
    | store => cases hlocked
    | clear => cases hlocked
    | _ =>
      obtain rfl := Option.some.inj hlocked
      rfl

theorem right_next (s : Shell) (l : Label) (s' : Shell) (h : Right s) (hs : next s l = some s') :
    Right s' ↔ Shown s l := by
  obtain ⟨t, ht, rfl⟩ := step_of_next hs
  show Right t ↔ Shown s l
  cases l with
  | showWatermark enable hidden =>
    rcases step_cases ht with hwithin | ⟨-, hlocked⟩
    case inl => cases hwithin
    case inr =>
      obtain rfl := Option.some.inj hlocked
      cases enable with
      | true => exact iff_of_true (Bool.or_true s.watermark) trivial
      | false =>
        cases hidden with
        | true => exact Iff.rfl
        | false => exact iff_of_true h trivial
  | _ => exact iff_of_true ((right_step ht nofun).mpr h) trivial

/-- **The watermark is right exactly if each is shown before it is hidden.** -/
theorem right_iff {ls : List Label} {s : Shell} (hrun : run next start ls = some s) :
    Always next Right start ls ↔ Each next Shown start ls := by
  have hstart : Right start := rfl
  apply always_iff_each (fun _ h => h) ?_ ?_ hstart hrun
  · exact fun s l s' h hok hs => (right_next s l s' h hs).mpr hok
  · exact fun s l s' h hbad hs hright => hbad ((right_next s l s' h hs).mp hright)

/-- The watermark is switched on and off again between two frames, and stays on. -/
def onAndOff : List Label := [.showWatermark true false, .showWatermark false true, .frame]

theorem on_and_off_not_right :
    ¬ Always next Right start onAndOff ∧
      (run next start onAndOff).map (fun s => (s.watermark, s.wanted)) = some (true, false) := by
  refine ⟨?_, rfl⟩
  rw [right_iff (show run next start onAndOff = some _ from rfl)]
  decide

/-! ## the storers -/

/-- the images that the frame has handed out to those on the list -/
def handed (s : Shell) : ℕ :=
  match s.handing with
  | some (.storing n) | some (.stored n) => n
  | _ => 0

/-- **No storer gets two images for one call, and they get them in the order of the calls.** -/
def Once (s : Shell) : Prop :=
  (s.stored.map (·.storer)).Sublist (s.captured.map (·.storer))

/-- an image that was not taken before its storer came -/
def Newer (c i : Capture) : Prop := c.storer = i.storer ∧ c.shot < i.shot

/-- **Each storer that is not on the list has got one image that is newer than its request.** -/
def Stored (s : Shell) : Prop :=
  ∃ past, s.captured = past ++ s.mCaptureStorers.drop (handed s) ∧ List.Forall₂ Newer past s.stored

/-- Images are handed out. -/
def HandsOut (s : Shell) : Prop := s.handing ≠ none ∧ s.handing ≠ some .taken

instance (s : Shell) : Decidable (HandsOut s) := inferInstanceAs (Decidable (_ ∧ _))

/-- Those on the list came before the screenshot that they are about to get. -/
def Fresh (s : Shell) : Prop := HandsOut s → ∀ c ∈ s.mCaptureStorers, c.shot < s.shots

/-- No storer comes while an image is handed out, or between its screenshot and that. -/
def Timely (s : Shell) : Label → Prop
  | .capture _ => ¬ HandsOut s
  | .look known => known = true → ∀ c ∈ s.mCaptureStorers, c.shot < s.shots
  | _ => True

instance decidableTimely (s : Shell) : ∀ l, Decidable (Timely s l)
  | .capture _ => inferInstanceAs (Decidable (¬ _))
  | .look known =>
    inferInstanceAs (Decidable (known = true → ∀ c ∈ s.mCaptureStorers, c.shot < s.shots))
  | .setScreenResolution _ _ | .showFullScreenImage _ | .showWatermark _ _ | .showSplashLogo _
  | .hideSplashLogo | .getScreenshot | .captureScreenshot _ | .frame | .store | .clear =>
    .isTrue trivial

/-- A screenshot is to come for the storers that wait. -/
def Awaited (s : Shell) : Prop := s.mCaptureStorers ≠ [] → s.needsScreenshot = true ∨ s.asking ≠ []

/-- The resolution is known when a screenshot is taken for storers none of which is to ask again. -/
def Known (s : Shell) : Label → Prop
  | .look known => s.mCaptureStorers ≠ [] → s.asking = [] → known = true
  | _ => True

instance decidableKnown (s : Shell) : ∀ l, Decidable (Known s l)
  | .look known =>
    inferInstanceAs (Decidable (s.mCaptureStorers ≠ [] → s.asking = [] → known = true))
  | .setScreenResolution _ _ | .showFullScreenImage _ | .showWatermark _ _ | .showSplashLogo _
  | .hideSplashLogo | .getScreenshot | .capture _ | .captureScreenshot _ | .frame | .store
  | .clear => .isTrue trivial

/-- what a step does that has nothing to do with the storers -/
structure Apart (s t : Shell) : Prop where
  handing : t.handing = s.handing
  storers : t.mCaptureStorers = s.mCaptureStorers
  captured : t.captured = s.captured
  stored : t.stored = s.stored
  shots : t.shots = s.shots
  awaited : t.asking = s.asking ∧ t.needsScreenshot = s.needsScreenshot ∨ t.needsScreenshot = true

theorem apart_locked (hs : locked s l = some s') : Apart s s' ∨ l = .frame ∧ s' = frame s := by
  cases l with
  | frame => exact .inr ⟨rfl, (Option.some.inj hs).symm⟩
  | captureScreenshot storer =>
    obtain rfl := locked_captureScreenshot hs
    exact .inl ⟨rfl, rfl, rfl, rfl, rfl, .inr rfl⟩
  | getScreenshot =>
    obtain rfl := Option.some.inj hs
    exact .inl ⟨rfl, rfl, rfl, rfl, rfl, .inr rfl⟩
  | showWatermark enable hidden =>
    obtain rfl := Option.some.inj hs
    cases enable <;> exact .inl ⟨rfl, rfl, rfl, rfl, rfl, .inl ⟨rfl, rfl⟩⟩
  | capture storer => cases hs
  | look known => cases hs
  | store => cases hs
  | clear => cases hs
  | _ =>
    obtain rfl := Option.some.inj hs
    exact .inl ⟨rfl, rfl, rfl, rfl, rfl, .inl ⟨rfl, rfl⟩⟩

theorem handed_of_not (h : ¬ HandsOut s) : handed s = 0 := by
  unfold handed
  cases hhanding : s.handing with
  | none => rfl
  | some handing =>
    cases handing with
    | taken => rfl
    | storing n => exact absurd ⟨by rw [hhanding]; exact nofun, by rw [hhanding]; exact nofun⟩ h
    | stored n => exact absurd ⟨by rw [hhanding]; exact nofun, by rw [hhanding]; exact nofun⟩ h

theorem not_handsOut_none (h : s.handing = none) : ¬ HandsOut s := fun hout => hout.1 h

theorem not_handsOut_taken (h : s.handing = some .taken) : ¬ HandsOut s := fun hout => hout.2 h

theorem not_handsOut_frame (s : Shell) : ¬ HandsOut (frame s) := by
  unfold HandsOut frame
  dsimp only
  split
  · exact fun h => h.2 rfl
  · exact fun h => h.1 rfl

/-! ## at most one image -/

/-- Those that have gone are before those on the list, and the images are those of some of them, and
of those on the list up to the place of the loop. -/
def Placed (s : Shell) : Prop :=
  ∃ gone, s.captured = gone ++ s.mCaptureStorers ∧
    (s.stored.map (·.storer)).Sublist
      ((gone ++ s.mCaptureStorers.take (handed s)).map (·.storer))

theorem Placed.once (h : Placed s) : Once s := by
  obtain ⟨gone, hcaptured, hsub⟩ := h
  unfold Once
  rw [hcaptured]
  refine hsub.trans (List.Sublist.map _ ?_)
  exact (List.Sublist.refl gone).append (List.take_sublist _ _)

theorem placed_store {n : ℕ} (h : Placed s) (hstoring : s.handing = some (.storing n)) :
    Placed (store s n) := by
  obtain ⟨gone, hcaptured, hsub⟩ := h
  have hn : handed s = n := by
    unfold handed
    rw [hstoring]
  rw [hn] at hsub
  unfold store
  split
  case h_1 c hc =>
    refine ⟨gone, hcaptured, ?_⟩
    show ((s.stored ++ [_]).map _).Sublist ((gone ++ s.mCaptureStorers.take (n + 1)).map _)
    rw [List.take_add_one, hc, Option.toList_some, ← List.append_assoc, List.map_append,
      List.map_append]
    exact hsub.append (List.Sublist.refl _)
  case h_2 => exact ⟨gone, hcaptured, hsub⟩

theorem placed_step (h : Placed s) (hs : step s l = some s') : Placed s' := by
  obtain ⟨gone, hcaptured, hsub⟩ := id h
  have hall : (s.stored.map (·.storer)).Sublist (s.captured.map (·.storer)) := h.once
  rcases step_cases hs with hwithin | ⟨hnone, hlocked⟩
  case inl =>
    cases l with
    | capture storer =>
      obtain rfl := Option.some.inj hwithin
      refine ⟨gone, ?_, hsub.trans (List.Sublist.map _ ?_)⟩
      · show s.captured ++ _ = gone ++ (s.mCaptureStorers ++ _)
        rw [hcaptured, List.append_assoc]
      · exact (List.Sublist.refl gone).append ((List.prefix_append _ _).take _).sublist
    | look known =>
      obtain ⟨htaken, rfl⟩ := within_look hwithin
      rw [handed_of_not (not_handsOut_taken htaken)] at hsub
      unfold look
      split
      · exact ⟨gone, hcaptured, hsub⟩
      · exact ⟨gone, hcaptured, hsub⟩
    | store =>
      obtain ⟨n, hstoring, rfl⟩ := within_store hwithin
      exact placed_store h hstoring
    | clear =>
      obtain ⟨n, -, rfl⟩ := within_clear hwithin
      refine ⟨s.captured, (List.append_nil _).symm, ?_⟩
      show (s.stored.map _).Sublist ((s.captured ++ []).map _)
      rw [List.append_nil]
      exact hall
    | _ => cases hwithin
  case inr =>
    rw [handed_of_not (not_handsOut_none hnone)] at hsub
    rcases apart_locked hlocked with hapart | ⟨rfl, rfl⟩
    · unfold Placed handed
      rw [hapart.captured, hapart.storers, hapart.stored, hapart.handing, hnone]
      exact ⟨gone, hcaptured, hsub⟩
    · refine ⟨gone, hcaptured, ?_⟩
      rw [handed_of_not (not_handsOut_frame s)]
      exact hsub

/-! ## images that are new -/

/-- what is so as long as the storers come in time -/
structure InTime (s : Shell) : Prop where
  stored : Stored s
  fresh : Fresh s
  dated : ∀ c ∈ s.mCaptureStorers, c.shot ≤ s.shots
  place : handed s ≤ s.mCaptureStorers.length
  through : ∀ n, s.handing = some (.stored n) → n = s.mCaptureStorers.length

variable {n : ℕ}

theorem InTime.capture (h : InTime s) {storer : ℕ} (hout : ¬ HandsOut s)
    (hs : within s (.capture storer) = some s') : InTime s' := by
  obtain rfl := Option.some.inj hs
  obtain ⟨past, hcaptured, hpast⟩ := h.stored
  have hn := handed_of_not hout
  refine ⟨⟨past, ?_, hpast⟩, fun hout' => absurd hout' hout, ?_, ?_, ?_⟩
  · rw [hn] at hcaptured
    show s.captured ++ _ = past ++ (s.mCaptureStorers ++ _).drop (handed s)
    rw [hn, hcaptured, List.drop_zero, List.drop_zero, List.append_assoc]
  · intro c hc
    rcases List.mem_append.mp hc with hc | hc
    · exact h.dated c hc
    · rw [List.mem_singleton.mp hc]
  · show handed s ≤ _
    rw [hn]
    exact Nat.zero_le _
  · intro n hstored
    replace hstored : s.handing = some (.stored n) := hstored
    exact absurd ⟨by rw [hstored]; exact nofun, by rw [hstored]; exact nofun⟩ hout

theorem InTime.look (h : InTime s) (htaken : s.handing = some .taken) {known : Bool}
    (htimely : known = true → ∀ c ∈ s.mCaptureStorers, c.shot < s.shots) : InTime (look s known) := by
  have hstored := h.stored
  unfold Stored at hstored
  rw [handed_of_not (not_handsOut_taken htaken)] at hstored
  unfold ScreenRequests.look
  split
  case isTrue hknown =>
    exact ⟨hstored, fun _ => htimely hknown.1, h.dated, Nat.zero_le _, fun _ h => nomatch h⟩
  case isFalse =>
    exact ⟨hstored, fun hout => absurd rfl hout.1, h.dated, Nat.zero_le _, fun _ h => nomatch h⟩

/-- **The next storer gets the image**, which is newer than its request. -/
theorem InTime.store (h : InTime s) (hstoring : s.handing = some (.storing n)) :
    InTime (store s n) := by
  have hn : handed s = n := by
    unfold handed
    rw [hstoring]
  have hout : HandsOut s := ⟨by rw [hstoring]; exact nofun, by rw [hstoring]; exact nofun⟩
  obtain ⟨past, hcaptured, hpast⟩ := h.stored
  have hplace := h.place
  rw [hn] at hcaptured hplace
  unfold ScreenRequests.store
  split
  case h_1 c hc =>
    obtain ⟨hlt, rfl⟩ := List.getElem?_eq_some_iff.mp hc
    refine ⟨⟨past ++ [s.mCaptureStorers[n]], ?_, ?_⟩, fun _ => h.fresh hout, h.dated, hlt,
      fun _ h => nomatch h⟩
    · show s.captured = past ++ [s.mCaptureStorers[n]] ++ s.mCaptureStorers.drop (n + 1)
      rw [hcaptured, List.drop_eq_getElem_cons hlt, List.append_assoc]
      rfl
    · apply List.rel_append hpast
      exact .cons ⟨rfl, h.fresh hout _ (List.getElem_mem hlt)⟩ .nil
  case h_2 hnone =>
    refine ⟨⟨past, hcaptured, hpast⟩, fun _ => h.fresh hout, h.dated, hplace, ?_⟩
    intro m hm
    cases hm
    exact Nat.le_antisymm hplace (List.getElem?_eq_none_iff.mp hnone)

/-- The list is cleared when all on it have got the image. -/
theorem InTime.clear (h : InTime s) (hthrough : s.handing = some (.stored n)) :
    InTime { done s with mCaptureStorers := [] } := by
  have hn : handed s = s.mCaptureStorers.length := by
    rw [← h.through n hthrough]
    unfold handed
    rw [hthrough]
  obtain ⟨past, hcaptured, hpast⟩ := h.stored
  rw [hn, List.drop_length] at hcaptured
  exact ⟨⟨past, hcaptured, hpast⟩, fun hout => absurd rfl hout.1, fun _ hc => (nomatch hc),
    Nat.zero_le _, fun _ h => nomatch h⟩

theorem InTime.apart (h : InTime s) (hapart : Apart s s') : InTime s' := by
  obtain ⟨hstored, hfresh, hdated, hplace, hthrough⟩ := h
  constructor
  · unfold Stored handed
    rw [hapart.captured, hapart.storers, hapart.handing, hapart.stored]
    exact hstored
  · unfold Fresh HandsOut
    rw [hapart.handing, hapart.storers, hapart.shots]
    exact hfresh
  · rw [hapart.storers, hapart.shots]
    exact hdated
  · unfold handed
    rw [hapart.handing, hapart.storers]
    exact hplace
  · rw [hapart.handing, hapart.storers]
    exact hthrough

theorem InTime.frame (h : InTime s) (hnone : s.handing = none) : InTime (frame s) := by
  have hout := not_handsOut_frame s
  have hstored := h.stored
  unfold Stored at hstored
  rw [handed_of_not (not_handsOut_none hnone)] at hstored
  constructor
  · unfold Stored
    rw [handed_of_not hout]
    exact hstored
  · exact fun hout' => absurd hout' hout
  · intro c hc
    have hle : c.shot ≤ s.shots := h.dated c hc
    show c.shot ≤ if s.needsScreenshot then s.shots + 1 else s.shots
    split
    · exact Nat.le_succ_of_le hle
    · exact hle
  · rw [handed_of_not hout]
    exact Nat.zero_le _
  · intro n hthrough
    exact absurd ⟨by rw [hthrough]; exact nofun, by rw [hthrough]; exact nofun⟩ hout

theorem inTime_step (h : InTime s) (htimely : Timely s l) (hs : step s l = some s') :
    InTime s' := by
  rcases step_cases hs with hwithin | ⟨hnone, hlocked⟩
  case inl =>
    cases l with
    | capture storer => exact h.capture htimely hwithin
    | look known =>
      obtain ⟨htaken, rfl⟩ := within_look hwithin
      exact h.look htaken htimely
    | store =>
      obtain ⟨n, hstoring, rfl⟩ := within_store hwithin
      exact h.store hstoring
    | clear =>
      obtain ⟨n, hthrough, rfl⟩ := within_clear hwithin
      exact h.clear hthrough
    | _ => cases hwithin
  case inr =>
    rcases apart_locked hlocked with hapart | ⟨rfl, rfl⟩
    · exact h.apart hapart
    · exact h.frame hnone

/-- **A storer that comes too late is about to get the image at hand.** -/
theorem not_fresh_step (hlate : ¬ Timely s l) (hs : step s l = some s') : ¬ Fresh s' := by
  rcases step_cases hs with hwithin | ⟨-, hlocked⟩
  case inl =>
    cases l with
    | capture storer =>
      obtain rfl := Option.some.inj hwithin
      intro hfresh
      have hlt := hfresh (not_not.mp hlate) ⟨storer, s.shots⟩
        (List.mem_append_right _ (List.mem_singleton_self _))
      exact Nat.lt_irrefl _ hlt
    | look known =>
      obtain ⟨htaken, rfl⟩ := within_look hwithin
      obtain ⟨hknown, hold⟩ := Classical.not_imp.mp hlate
      obtain ⟨c, hc⟩ := not_forall.mp hold
      obtain ⟨hmem, hnot⟩ := Classical.not_imp.mp hc
      unfold look
      rw [if_pos ⟨hknown, List.ne_nil_of_mem hmem⟩]
      exact fun hfresh => hnot (hfresh ⟨nofun, nofun⟩ c hmem)
    | _ => exact absurd trivial hlate
  case inr =>
    cases l with
    | capture storer => cases hlocked
    | look known => cases hlocked
    | _ => exact absurd trivial hlate

/-! ## storers that wait -/

/-- A frame leaves storers behind only when it knows no resolution for its screenshot. -/
theorem awaited_step (h : Awaited s) (hs : step s l = some s') : Awaited s' ↔ Known s l := by
  rcases step_cases hs with hwithin | ⟨-, hlocked⟩
  case inl =>
    cases l with
    | capture storer =>
      obtain rfl := Option.some.inj hwithin
      exact iff_of_true (fun _ => .inr (List.cons_ne_nil storer s.asking)) trivial
    | look known =>
      obtain ⟨-, rfl⟩ := within_look hwithin
      unfold look
      split
      case isTrue hknown => exact iff_of_true h fun _ _ => hknown.1
      case isFalse hnot =>
        constructor
        · intro hawaited hsome hasking
          rcases hawaited hsome with hneeds | hasking'
          · cases hneeds
          · exact absurd hasking hasking'
        · intro hknown hsome
          exact .inr fun hasking => hnot ⟨hknown hsome hasking, hsome⟩
    | store =>
      obtain ⟨n, -, rfl⟩ := within_store hwithin
      refine iff_of_true ?_ trivial
      unfold store
      split
      · exact h
      · exact h
    | clear =>
      obtain ⟨n, -, rfl⟩ := within_clear hwithin
      exact iff_of_true (fun hsome => absurd rfl hsome) trivial
    | _ => cases hwithin
  case inr =>
    rcases apart_locked hlocked with hapart | ⟨rfl, rfl⟩
    · have hawaited : Awaited s' := by
        intro hsome
        rw [hapart.storers] at hsome
        rcases hapart.awaited with ⟨hasking, hneeds⟩ | hneeds
        · rw [hasking, hneeds]
          exact h hsome
        · exact .inl hneeds
      refine iff_of_true hawaited ?_
      cases l with
      | look known => cases hlocked
      | _ => trivial
    · exact iff_of_true h trivial

/-- **The storers of a run.**  None gets two images for one call; each that is not on the list has got a
newer one, in order, and none is about to get an older one, exactly if none comes too late; and for
those that wait a screenshot is to come exactly if the resolution is known when one is taken. -/
theorem captures_iff {ls : List Label} {s : Shell} (hrun : run next start ls = some s) :
    Once s ∧
      (Always next (fun t => Stored t ∧ Fresh t) start ls ↔ Each next Timely start ls) ∧
      (Always next Awaited start ls ↔ Each next Known start ls) := by
  refine ⟨?_, ?_, ?_⟩
  · have hstart : Placed start := ⟨[], rfl, List.Sublist.refl _⟩
    refine (run_invariant (I := Placed) ?_ hstart hrun).once
    intro s l s' h hs
    obtain ⟨t, ht, rfl⟩ := step_of_next hs
    have hplaced : Placed t := placed_step h ht
    exact hplaced
  · have hstart : InTime start :=
      ⟨⟨[], rfl, .nil⟩, fun hout => absurd rfl hout.1, fun _ hc => (nomatch hc), Nat.zero_le _,
        fun _ h => (nomatch h)⟩
    refine always_iff_each (I := InTime) (fun s h => ⟨h.stored, h.fresh⟩) ?_ ?_ hstart hrun
    · intro s l s' h htimely hs
      obtain ⟨t, ht, rfl⟩ := step_of_next hs
      obtain ⟨hstored, hfresh, hdated, hplace, hthrough⟩ := inTime_step h htimely ht
      exact ⟨hstored, hfresh, hdated, hplace, hthrough⟩
    · intro s l s' _ hlate hs hboth
      obtain ⟨t, ht, rfl⟩ := step_of_next hs
      exact not_fresh_step hlate ht hboth.2
  · have hstart : Awaited start := fun h => absurd rfl h
    have hnext : ∀ s l s', Awaited s → next s l = some s' → (Awaited s' ↔ Known s l) := by
      intro s l s' h hs
      obtain ⟨t, ht, rfl⟩ := step_of_next hs
      have hiff : Awaited t ↔ Known s l := awaited_step h ht
      exact hiff
    apply always_iff_each (fun _ h => h) ?_ ?_ hstart hrun
    · exact fun s l s' h hok hs => (hnext s l s' h hs).mpr hok
    · exact fun s l s' h hbad hs hawaited => hbad ((hnext s l s' h hs).mp hawaited)

/-- The second storer comes while the first gets its image, and gets the same one; the third comes
when all have theirs, and is forgotten. -/
def lateStorers : List Label :=
  [.capture 1, .captureScreenshot 1, .frame, .look true, .store, .capture 2, .store, .store,
    .capture 3, .clear]

theorem late_storers_in_vain :
    (∃ s, run next start lateStorers = some s ∧ Once s ∧ s.mCaptureStorers = [] ∧
      s.stored = [⟨1, 1⟩, ⟨2, 1⟩] ∧ s.captured = [⟨1, 0⟩, ⟨2, 1⟩, ⟨3, 1⟩]) ∧
    ¬ Always next (fun t => Stored t ∧ Fresh t) start lateStorers ∧
    Always next Awaited start lateStorers := by
  obtain ⟨honce, hstored, hawaited⟩ :=
    captures_iff (show run next start lateStorers = some _ from rfl)
  refine ⟨⟨_, rfl, honce, rfl, rfl, rfl⟩, ?_, ?_⟩
  · rw [hstored]
    decide
  · rw [hawaited]
    decide

end ScreenRequests
