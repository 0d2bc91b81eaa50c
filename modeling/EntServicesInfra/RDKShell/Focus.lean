import EntServicesInfra.Lib.Runs
import EntServicesInfra.Lib.Threads
import EntServicesInfra.RDKShell.DisplayRequests
import Mathlib.Data.List.Sort
import Mathlib.Logic.Function.Basic

/-!
# RDKShell: which plugin is told that it has the focus

`setFocus` moves the focus of the compositor under `gRdkShellMutex`, and tells the plugins afterwards,
with no mutex and from a copy of `gActivePluginsData`: the one that had the focus that it has lost it,
and the client that it has it.  It does not look at what the compositor returned.

* `Right`        each plugin has been told what is so, or a call is about to tell it; and each call
                 that has still to tell has set the focus that is there now;
* `Fits`         when a step is no danger to that;
* `right_fits`   `Right` holds all along a run exactly if every step `Fits`.
-/

namespace RDKShell.Focus
open Runs Threads
open DisplayRequests (toLower)

inductive Phase where
  | entered
  /-- is not being destroyed -/
  | checked
  /-- the focus has moved, from this client if it is one -/
  | changed (previous : String) (ret : Bool)
  /-- has copied the names of the active plugins -/
  | copied (previous : String) (plugins : List String) (ret : Bool)
  | toldPrevious (plugins : List String) (ret : Bool)
  | returned (ret : Bool)
deriving DecidableEq, Repr

structure Call where
  client : String
  phase : Phase
deriving DecidableEq, Repr

structure Shell where
  /-- what `CompositorController::getFocused` gives -/
  focused : String
  /-- the keys of `gActivePluginsData`, in their order -/
  active : List String
  /-- what an activated plugin that is an `IFocus` was told last; history -/
  told : String → Option Bool
  calls : List Call

inductive Label where
  | setFocus (client : String)
  /-- whether it is in `gDestroyApplications` -/
  | check (i : ℕ) (destroyed : Bool)
  /-- what `CompositorController::setFocus` returns -/
  | focus (i : ℕ) (ret : Bool)
  | copy (i : ℕ)
  /-- whether the one that had the focus is suspended or hibernated -/
  | tellPrevious (i : ℕ) (skipFocus : Bool)
  | tellClient (i : ℕ)
  /-- the compositor moves the focus by itself -/
  | compositor (focused : String)
  | handleInitialize (callsign : String)
  | handleDeinitialized (callsign : String)
  /-- the plugin comes, and whether it is an `IFocus`; or goes -/
  | activate (callsign : String) (focusable : Bool)
  | deactivate (callsign : String)
deriving DecidableEq, Repr

def start : Shell := ⟨"", [], fun _ => none, []⟩

def moved (s : Shell) (i : ℕ) (call : Call) (phase : Phase) : Shell :=
  { s with calls := s.calls.set i { call with phase := phase } }

/-- The focus of the compositor moves to the client if it knows it. -/
def refocused (s : Shell) (client : String) (ret : Bool) : Shell :=
  { s with focused := if ret then toLower client else s.focused }

/-- `Focused`, if the plugin is there and has it -/
def tell (s : Shell) (callsign : String) (focused : Bool) : Shell :=
  { s with told := if (s.told callsign).isSome then
      Function.update s.told callsign (some focused) else s.told }

/-- the plugin that is to be told that it has lost the focus -/
def loser (previous : String) (plugins : List String) : Option String :=
  if previous = "" then none else plugins.find? fun callsign => toLower callsign == previous

def tellPrevious (s : Shell) (previous : String) (plugins : List String) (skipFocus : Bool) :
    Shell :=
  match loser previous plugins with
  | some callsign => if skipFocus then s else tell s callsign false
  | none => s

def tellClient (s : Shell) (client : String) (plugins : List String) : Shell :=
  if client ∈ plugins then tell s client true else s

def next (s : Shell) : Label → Option Shell
  | .setFocus client => some { s with calls := s.calls ++ [⟨client, .entered⟩] }
  | .check i destroyed =>
    match s.calls[i]? with
    | some ⟨client, .entered⟩ =>
      some (moved s i ⟨client, .entered⟩ (if destroyed then .returned false else .checked))
    | _ => none
  | .focus i ret =>
    match s.calls[i]? with
    | some ⟨client, .checked⟩ =>
      some (moved (refocused s client ret) i ⟨client, .checked⟩
        (if s.focused ≠ toLower client then .changed s.focused ret else .returned ret))
    | _ => none
  | .copy i =>
    match s.calls[i]? with
    | some ⟨client, .changed previous ret⟩ =>
      some (moved s i ⟨client, .changed previous ret⟩ (.copied previous s.active ret))
    | _ => none
  | .tellPrevious i skipFocus =>
    match s.calls[i]? with
    | some ⟨client, .copied previous plugins ret⟩ =>
      some (moved (tellPrevious s previous plugins skipFocus) i
        ⟨client, .copied previous plugins ret⟩ (.toldPrevious plugins ret))
    | _ => none
  | .tellClient i =>
    match s.calls[i]? with
    | some ⟨client, .toldPrevious plugins ret⟩ =>
      some (moved (tellClient s client plugins) i ⟨client, .toldPrevious plugins ret⟩
        (.returned ret))
    | _ => none
  | .compositor focused => some { s with focused := focused }
  | .handleInitialize callsign =>
    if callsign = "" then none
    else some { s with active := if callsign ∈ s.active then s.active
      else s.active.orderedInsert (· ≤ ·) callsign }
  | .handleDeinitialized callsign =>
    if s.told callsign = none then some { s with active := s.active.erase callsign } else none
  | .activate callsign focusable =>
    if callsign ∈ s.active ∧ s.told callsign = none then
      some { s with told := Function.update s.told callsign (if focusable then some false else none) }
    else none
  | .deactivate callsign => some { s with told := Function.update s.told callsign none }

/-! ## what is expected -/

def Shell.onFocus (s : Shell) (callsign : String) : Bool := toLower callsign == s.focused

/-- The call has still to tell. -/
def Call.telling (call : Call) : Bool :=
  match call.phase with
  | .changed _ _ | .copied _ _ _ | .toldPrevious _ _ => true
  | _ => false

/-- what is told with these plugins -/
def Owed (plugins : List String) (previous client callsign : String) : Bool → Prop
  | true => callsign = client ∧ callsign ∈ plugins
  | false => loser previous plugins = some callsign

/-- The call is about to tell the plugin this. -/
def Call.owes (active : List String) (call : Call) (callsign : String) (focused : Bool) : Prop :=
  match call.phase with
  | .changed previous _ => Owed active previous call.client callsign focused
  | .copied previous plugins _ => Owed plugins previous call.client callsign focused
  | .toldPrevious plugins _ => focused = true ∧ callsign = call.client ∧ callsign ∈ plugins
  | _ => False

def Due (s : Shell) (callsign : String) (focused : Bool) : Prop :=
  ∃ call ∈ s.calls, call.owes s.active callsign focused

/-- **Each plugin knows whether it has the focus**, or is about to be told. -/
structure Right (s : Shell) : Prop where
  /-- no two plugins are one client of the compositor -/
  clients : (s.active.map toLower).Nodup
  told : ∀ callsign focused, s.told callsign = some focused →
    focused = s.onFocus callsign ∨ Due s callsign (s.onFocus callsign)
  fresh : ∀ call ∈ s.calls, call.telling → toLower call.client = s.focused

/-- The plugin that is to be told that it has lost the focus does not think that it has it. -/
def Unaware (s : Shell) (call : Call) : Prop :=
  match call.phase with
  | .copied previous plugins _ => ∀ callsign ∈ loser previous plugins, s.told callsign ≠ some true
  | _ => True

/-- The step finds what it needs for that. -/
def Fits (s : Shell) : Label → Prop
  -- the focus moves to the client, while nobody else has to tell, and its plugin bears that name
  | .focus i ret => ∀ call ∈ s.calls[i]?, s.focused ≠ toLower call.client →
      ret = true ∧ (∀ other ∈ s.calls, other.telling = false) ∧
        ∀ callsign ∈ s.active, (s.told callsign).isSome → toLower callsign = toLower call.client →
          callsign = call.client
  | .tellPrevious i skipFocus => skipFocus → ∀ call ∈ s.calls[i]?, Unaware s call
  | .compositor focused => focused = s.focused ∨ (∀ call ∈ s.calls, call.telling = false) ∧
      ∀ callsign ∈ s.active, (s.told callsign).isSome →
        toLower callsign ≠ s.focused ∧ toLower callsign ≠ focused
  | .handleInitialize callsign => callsign ∉ s.active → toLower callsign ∉ s.active.map toLower
  | .activate callsign focusable => focusable → toLower callsign ≠ s.focused ∨ Due s callsign true
  | _ => True

instance decidableOwed (plugins : List String) (previous client callsign : String) :
    ∀ focused, Decidable (Owed plugins previous client callsign focused)
  | true => inferInstanceAs (Decidable (_ ∧ _))
  | false => inferInstanceAs (Decidable (_ = _))

instance decidableOwes (active : List String) (call : Call) (callsign : String) (focused : Bool) :
    Decidable (call.owes active callsign focused) :=
  match call with
  | ⟨client, .changed previous _⟩ => decidableOwed active previous client callsign focused
  | ⟨client, .copied previous plugins _⟩ => decidableOwed plugins previous client callsign focused
  | ⟨_, .toldPrevious _ _⟩ => inferInstanceAs (Decidable (_ ∧ _))
  | ⟨_, .entered⟩ => .isFalse id
  | ⟨_, .checked⟩ => .isFalse id
  | ⟨_, .returned _⟩ => .isFalse id

instance decidableDue (s : Shell) (callsign : String) (focused : Bool) :
    Decidable (Due s callsign focused) :=
  inferInstanceAs (Decidable (∃ call ∈ s.calls, call.owes s.active callsign focused))

instance decidableUnaware (s : Shell) : ∀ call, Decidable (Unaware s call)
  | ⟨_, .copied _ _ _⟩ => inferInstanceAs (Decidable (∀ _ ∈ _, _))
  | ⟨_, .entered⟩ => .isTrue trivial
  | ⟨_, .checked⟩ => .isTrue trivial
  | ⟨_, .changed _ _⟩ => .isTrue trivial
  | ⟨_, .toldPrevious _ _⟩ => .isTrue trivial
  | ⟨_, .returned _⟩ => .isTrue trivial

instance decidableFits (s : Shell) : ∀ l, Decidable (Fits s l)
  | .focus _ _ => inferInstanceAs (Decidable (∀ _ ∈ _, _ → _))
  | .tellPrevious _ _ => inferInstanceAs (Decidable (_ → ∀ _ ∈ _, _))
  | .compositor _ => inferInstanceAs (Decidable (_ ∨ _))
  | .handleInitialize _ => inferInstanceAs (Decidable (_ → _))
  | .activate _ _ => inferInstanceAs (Decidable (_ → _))
  | .setFocus _ => .isTrue trivial
  | .check _ _ => .isTrue trivial
  | .copy _ => .isTrue trivial
  | .tellClient _ => .isTrue trivial
  | .handleDeinitialized _ => .isTrue trivial
  | .deactivate _ => .isTrue trivial

/-! ## what is due -/

variable {s s' t : Shell} {call : Call} {i : ℕ} {callsign client previous : String}
  {plugins : List String} {focused : Bool} {phase : Phase}

theorem toLower_eq_empty (h : toLower callsign = "") : callsign = "" := by
  have hlist : callsign.toList.map Char.toLower = [] := by
    rw [← String.toList_ofList (l := callsign.toList.map Char.toLower)]
    exact congrArg String.toList h
  exact String.toList_inj.mp (List.map_eq_nil_iff.mp hlist)

theorem toLower_of_loser (h : loser previous plugins = some callsign) :
    toLower callsign = previous := by
  unfold loser at h
  split at h
  case isTrue => cases h
  case isFalse =>
    exact beq_iff_eq.mp (List.find?_some (p := fun other => toLower other == previous) h)

/-- Where no two plugins are one client, the loser is the plugin of that client. -/
theorem loser_eq_some_iff (hnodup : (plugins.map toLower).Nodup) :
    loser previous plugins = some callsign ↔
      previous ≠ "" ∧ callsign ∈ plugins ∧ toLower callsign = previous := by
  constructor
  · intro h
    have hlower := toLower_of_loser h
    unfold loser at h
    split at h
    case isTrue => cases h
    case isFalse hne => exact ⟨hne, List.mem_of_find?_eq_some h, hlower⟩
  · rintro ⟨hne, hmem, rfl⟩
    unfold loser
    rw [if_neg hne]
    cases hfound : plugins.find? fun other => toLower other == toLower callsign with
    | none => exact absurd (beq_self_eq_true _) (List.find?_eq_none.mp hfound callsign hmem)
    | some other =>
      have hother := List.mem_of_find?_eq_some hfound
      have hsame := List.find?_some (p := fun other => toLower other == toLower callsign) hfound
      rw [List.inj_on_of_nodup_map hnodup hother hmem (beq_iff_eq.mp hsame)]

/-- What is owed of the active plugins is owed of any plugins that have them. -/
theorem Owed.mono {plugins' : List String} (hnodup : (plugins.map toLower).Nodup)
    (hnodup' : (plugins'.map toLower).Nodup) (hmem : callsign ∈ plugins → callsign ∈ plugins')
    (h : Owed plugins previous client callsign focused) :
    Owed plugins' previous client callsign focused := by
  cases focused with
  | true => exact ⟨h.1, hmem h.2⟩
  | false =>
    obtain ⟨hne, hactive, hlower⟩ := (loser_eq_some_iff hnodup).mp h
    exact (loser_eq_some_iff hnodup').mpr ⟨hne, hmem hactive, hlower⟩

theorem Call.owes_mono {active active' : List String} (hnodup : (active.map toLower).Nodup)
    (hnodup' : (active'.map toLower).Nodup) (hmem : callsign ∈ active → callsign ∈ active')
    (h : call.owes active callsign focused) : call.owes active' callsign focused := by
  unfold Call.owes at h ⊢
  split at h
  case h_1 => exact Owed.mono hnodup hnodup' hmem h
  case h_2 => exact h
  case h_3 => exact h
  case h_4 => exact h

theorem Call.telling_of_owes {active : List String} (h : call.owes active callsign focused) :
    call.telling = true := by
  unfold Call.owes at h
  unfold Call.telling
  split at h
  case h_1 => rfl
  case h_2 => rfl
  case h_3 => rfl
  case h_4 => exact h.elim

theorem not_due (h : ∀ call ∈ s.calls, call.telling = false) : ¬ Due s callsign focused := by
  rintro ⟨call, hmem, howes⟩
  exact Bool.false_ne_true ((h call hmem).symm.trans (Call.telling_of_owes howes))

/-- When no call has still to tell, each plugin knows. -/
theorem Right.quiet (h : Right s) (hquiet : ∀ call ∈ s.calls, call.telling = false)
    (htold : s.told callsign = some focused) : focused = s.onFocus callsign :=
  (h.told callsign focused htold).resolve_right (not_due hquiet)

/-- A call moves on, and what it owed it owes still. -/
theorem Due.moved (h : Due s callsign focused) (hi : s.calls[i]? = some call)
    (howes : call.owes s.active callsign focused →
      Call.owes s.active { call with phase := phase } callsign focused) :
    Due (moved s i call phase) callsign focused := by
  obtain ⟨other, hmem, h⟩ := h
  exact exists_mem_set hi ⟨other, hmem, h⟩ howes

/-! ## the invariant -/

/-- The focus was on another client before. -/
def Call.moves (call : Call) : Prop :=
  match call.phase with
  | .changed previous _ | .copied previous _ _ => previous ≠ toLower call.client
  | _ => True

structure Inv (s : Shell) : Prop extends Right s where
  active : ∀ callsign, (s.told callsign).isSome → callsign ∈ s.active
  named : "" ∉ s.active
  alone : s.calls.countP Call.telling ≤ 1
  moves : ∀ call ∈ s.calls, call.moves

theorem inv_start : Inv start where
  clients := List.nodup_nil
  told _ _ h := nomatch h
  fresh _ h := nomatch h
  active _ h := nomatch h
  named h := nomatch h
  alone := Nat.zero_le 1
  moves _ h := nomatch h

theorem telling_set (s : Shell) (hi : s.calls[i]? = some call)
    (htelling : Call.telling { call with phase := phase } = true → call.telling = true) :
    (s.calls.set i { call with phase := phase }).countP Call.telling ≤
      s.calls.countP Call.telling := by
  have hcount : (s.calls.set i { call with phase := phase }).countP Call.telling +
      (if call.telling then 1 else 0) = s.calls.countP Call.telling +
        if Call.telling { call with phase := phase } then 1 else 0 := countP_set_add Call.telling hi
  cases hafter : Call.telling { call with phase := phase } with
  | true =>
    rw [hafter, htelling hafter] at hcount
    simp only [if_true] at hcount
    omega
  | false =>
    rw [hafter] at hcount
    simp only [Bool.false_eq_true, if_false] at hcount
    omega

/-- A call moves on, and the focus stays. -/
theorem Inv.move (h : Inv s) (hi : s.calls[i]? = some call) (hcalls : t.calls = s.calls)
    (hactive : t.active = s.active) (hfocused : t.focused = s.focused)
    (hisSome : ∀ callsign, (t.told callsign).isSome → (s.told callsign).isSome)
    (htelling : Call.telling { call with phase := phase } = true → call.telling = true)
    (hmoves : Call.moves { call with phase := phase })
    (htold : ∀ callsign focused, t.told callsign = some focused →
      focused = s.onFocus callsign ∨ Due (moved t i call phase) callsign (s.onFocus callsign)) :
    Inv (moved t i call phase) where
  clients := by
    show (t.active.map toLower).Nodup
    rw [hactive]
    exact h.clients
  told callsign focused hsome := by
    have hsame : (moved t i call phase).onFocus callsign = s.onFocus callsign :=
      congrArg (toLower callsign == ·) hfocused
    rw [hsame]
    exact htold callsign focused hsome
  fresh := by
    show ∀ c ∈ t.calls.set i { call with phase := phase }, c.telling → toLower c.client = t.focused
    rw [hcalls, hfocused]
    refine forall_mem_set h.fresh fun hafter => ?_
    exact h.fresh call (List.mem_of_getElem? hi) (htelling hafter)
  active callsign hsome := by
    show callsign ∈ t.active
    rw [hactive]
    exact h.active callsign (hisSome callsign hsome)
  named := by
    show "" ∉ t.active
    rw [hactive]
    exact h.named
  alone := by
    show (t.calls.set i { call with phase := phase }).countP Call.telling ≤ 1
    rw [hcalls]
    exact (telling_set s hi htelling).trans h.alone
  moves := by
    show ∀ c ∈ t.calls.set i { call with phase := phase }, c.moves
    rw [hcalls]
    exact forall_mem_set h.moves hmoves

/-- A call moves on, nobody is told, and it owes what it owed. -/
theorem Inv.pass (h : Inv s) (hi : s.calls[i]? = some call)
    (htelling : Call.telling { call with phase := phase } = true → call.telling = true)
    (hmoves : Call.moves { call with phase := phase })
    (howes : ∀ callsign focused, call.owes s.active callsign focused →
      Call.owes s.active { call with phase := phase } callsign focused) :
    Inv (moved s i call phase) := by
  refine h.move hi rfl rfl rfl (fun _ => id) htelling hmoves fun callsign focused hsome => ?_
  exact (h.told callsign focused hsome).imp_right fun hdue => hdue.moved hi (howes _ _)

/-! ## the focus moves -/

theorem Inv.start_telling (h : Inv s) (hi : s.calls[i]? = some ⟨client, .checked⟩)
    (hchange : s.focused ≠ toLower client) (hnone : ∀ call ∈ s.calls, call.telling = false)
    (hspelled : ∀ callsign ∈ s.active, (s.told callsign).isSome →
      toLower callsign = toLower client → callsign = client) :
    Inv (moved (refocused s client true) i ⟨client, .checked⟩ (.changed s.focused true)) := by
  have hmem : ⟨client, .changed s.focused true⟩ ∈
      s.calls.set i ⟨client, .changed s.focused true⟩ := by
    obtain ⟨hlt, -⟩ := List.getElem?_eq_some_iff.mp hi
    exact List.mem_set hlt _
  refine ⟨⟨h.clients, fun callsign focused hsome => ?_, ?_⟩, h.active, h.named, ?_, ?_⟩
  · replace hsome : s.told callsign = some focused := hsome
    have hisSome : (s.told callsign).isSome := by
      rw [hsome]
      rfl
    have hactive := h.active callsign hisSome
    -- nobody else has to tell, so it knows what was so before
    obtain rfl : focused = s.onFocus callsign :=
      h.quiet hnone hsome
    have hafter : (moved (refocused s client true) i ⟨client, .checked⟩
        (.changed s.focused true)).onFocus callsign = (toLower callsign == toLower client) := rfl
    rw [hafter]
    cases hnow : toLower callsign == toLower client with
    | true =>
      obtain rfl := hspelled callsign hactive hisSome (beq_iff_eq.mp hnow)
      exact .inr ⟨_, hmem, rfl, hactive⟩
    | false =>
      cases hbefore : s.onFocus callsign with
      | false => exact .inl rfl
      | true =>
        have hlower : toLower callsign = s.focused := beq_iff_eq.mp hbefore
        refine .inr ⟨_, hmem, (loser_eq_some_iff h.clients).mpr ⟨fun hempty => ?_, hactive, hlower⟩⟩
        rw [hempty] at hlower
        rw [toLower_eq_empty hlower] at hactive
        exact h.named hactive
  · refine forall_mem_set (fun call hcall htelling => ?_) fun _ => rfl
    exact absurd ((hnone call hcall).symm.trans htelling) Bool.false_ne_true
  · have hcount : (s.calls.set i ⟨client, .changed s.focused true⟩).countP Call.telling + 0 =
        s.calls.countP Call.telling + 1 := countP_set_add Call.telling hi
    have hzero : s.calls.countP Call.telling = 0 := by
      refine List.countP_eq_zero.mpr fun call hcall htelling => ?_
      exact absurd ((hnone call hcall).symm.trans htelling) Bool.false_ne_true
    rw [hzero] at hcount
    show (s.calls.set i ⟨client, .changed s.focused true⟩).countP Call.telling ≤ 1
    exact Nat.le_of_eq hcount
  · exact forall_mem_set h.moves hchange

/-! ## the plugins are told -/

theorem told_tell {other : String} {value : Bool} (h : (tell s callsign focused).told other = some value) :
    (other = callsign ∧ value = focused) ∨ (other ≠ callsign ∧ s.told other = some value) := by
  unfold tell at h
  by_cases hsame : other = callsign
  · subst hsame
    refine .inl ⟨rfl, ?_⟩
    by_cases hsome : (s.told other).isSome
    · simp only [hsome, if_true, Function.update_self] at h
      exact (Option.some.inj h).symm
    · simp only [hsome] at h
      exact absurd (by rw [show s.told other = some value from h]; rfl) hsome
  · refine .inr ⟨hsame, ?_⟩
    by_cases hsome : (s.told callsign).isSome
    · simp only [hsome, if_true] at h
      rwa [Function.update_of_ne hsame] at h
    · simp only [hsome] at h
      exact h

theorem isSome_of_told_tell {other : String} (h : ((tell s callsign focused).told other).isSome) :
    (s.told other).isSome := by
  unfold tell at h
  by_cases hsome : (s.told callsign).isSome
  · simp only [hsome, if_true] at h
    by_cases hsame : other = callsign
    · rw [hsame]
      exact hsome
    · rwa [Function.update_of_ne hsame] at h
  · simp only [hsome] at h
    exact h

/-- The focus is not where it was before a call that has still to tell so. -/
theorem Inv.loser_lost {ret : Bool} (h : Inv s)
    (hmem : ⟨client, .copied previous plugins ret⟩ ∈ s.calls)
    (hloser : loser previous plugins = some callsign) : s.onFocus callsign = false := by
  have hnow : toLower client = s.focused :=
    h.fresh ⟨client, .copied previous plugins ret⟩ hmem rfl
  have hmoves : previous ≠ toLower client := h.moves _ hmem
  refine beq_eq_false_iff_ne.mpr ?_
  rw [toLower_of_loser hloser, ← hnow]
  exact hmoves

theorem Inv.tellPrevious {skipFocus ret : Bool} (h : Inv s)
    (hi : s.calls[i]? = some ⟨client, .copied previous plugins ret⟩)
    (hskip : skipFocus = true → ∀ callsign ∈ loser previous plugins, s.told callsign ≠ some true) :
    Inv (moved (tellPrevious s previous plugins skipFocus) i ⟨client, .copied previous plugins ret⟩
      (.toldPrevious plugins ret)) := by
  have hlost : ∀ callsign, loser previous plugins = some callsign → s.onFocus callsign = false :=
    fun _ => h.loser_lost (List.mem_of_getElem? hi)
  -- whoever was told right, or is owed by another call or owed the focus, is so still
  have hkeep : ∀ {t : Shell} {callsign : String}, t.calls = s.calls → t.active = s.active →
      (loser previous plugins = some callsign → s.told callsign = some false) → ∀ focused,
      s.told callsign = some focused →
        focused = s.onFocus callsign ∨
          Due (moved t i ⟨client, .copied previous plugins ret⟩ (.toldPrevious plugins ret)) callsign
            (s.onFocus callsign) := by
    intro t callsign hcalls hactive htold focused hsome
    rcases h.told callsign focused hsome with hright | hdue
    · exact .inl hright
    · by_cases hloser : loser previous plugins = some callsign
      · rw [htold hloser] at hsome
        rw [hlost callsign hloser]
        exact .inl (Option.some.inj hsome).symm
      · refine .inr ?_
        obtain ⟨other, hother, howes⟩ := hdue
        show ∃ c ∈ t.calls.set i _, c.owes t.active callsign (s.onFocus callsign)
        rw [hcalls, hactive]
        refine exists_mem_set hi ⟨other, hother, howes⟩ fun howes => ?_
        cases hfocus : s.onFocus callsign with
        | true =>
          rw [hfocus] at howes
          exact ⟨rfl, howes⟩
        | false =>
          rw [hfocus] at howes
          exact absurd howes hloser
  unfold Focus.tellPrevious
  split
  case h_1 callsign hloser =>
    split
    case isTrue hskipped =>
      refine h.move hi rfl rfl rfl (fun _ => id) (fun _ => rfl) trivial fun other focused hsome => ?_
      refine hkeep rfl rfl (fun hother => ?_) focused hsome
      have hnot := hskip hskipped other hother
      cases focused with
      | false => exact hsome
      | true => exact absurd hsome hnot
    case isFalse =>
      refine h.move hi rfl rfl rfl (fun _ => isSome_of_told_tell) (fun _ => rfl) trivial
        fun other focused hsome => ?_
      rcases told_tell hsome with ⟨rfl, rfl⟩ | ⟨hne, hsome⟩
      · exact .inl (hlost _ hloser).symm
      · refine hkeep rfl rfl (fun hother => ?_) focused hsome
        exact absurd (Option.some.inj (hother.symm.trans hloser)) hne
  case h_2 hnone =>
    refine h.move hi rfl rfl rfl (fun _ => id) (fun _ => rfl) trivial fun other focused hsome => ?_
    refine hkeep rfl rfl (fun hother => ?_) focused hsome
    cases hnone.symm.trans hother

theorem Inv.tellClient {ret : Bool} (h : Inv s)
    (hi : s.calls[i]? = some ⟨client, .toldPrevious plugins ret⟩) :
    Inv (moved (tellClient s client plugins) i ⟨client, .toldPrevious plugins ret⟩
      (.returned ret)) := by
  have hnow : toLower client = s.focused :=
    h.fresh ⟨client, .toldPrevious plugins ret⟩ (List.mem_of_getElem? hi) rfl
  have hkeep : ∀ {t : Shell} {callsign : String}, t.calls = s.calls → t.active = s.active →
      (callsign = client → client ∉ plugins) → ∀ focused, s.told callsign = some focused →
        focused = s.onFocus callsign ∨
          Due (moved t i ⟨client, .toldPrevious plugins ret⟩ (.returned ret)) callsign
            (s.onFocus callsign) := by
    intro t callsign hcalls hactive hnot focused hsome
    refine (h.told callsign focused hsome).imp_right fun hdue => ?_
    obtain ⟨other, hother, howes⟩ := hdue
    show ∃ c ∈ t.calls.set i _, c.owes t.active callsign (s.onFocus callsign)
    rw [hcalls, hactive]
    refine exists_mem_set hi ⟨other, hother, howes⟩ fun howes => ?_
    obtain ⟨-, rfl, hplugin⟩ := howes
    exact absurd hplugin (hnot rfl)
  unfold Focus.tellClient
  split
  case isTrue =>
    refine h.move hi rfl rfl rfl (fun _ => isSome_of_told_tell) (fun h => nomatch h) trivial
      fun other focused hsome => ?_
    rcases told_tell hsome with ⟨rfl, rfl⟩ | ⟨hne, hsome⟩
    · exact .inl (beq_iff_eq.mpr hnow).symm
    · exact hkeep rfl rfl (fun hsame => absurd hsame hne) focused hsome
  case isFalse hplugin =>
    refine h.move hi rfl rfl rfl (fun _ => id) (fun h => nomatch h) trivial
      fun other focused hsome => ?_
    exact hkeep rfl rfl (fun _ => hplugin) focused hsome

/-! ## the plugins and the compositor -/

/-- The active plugins change, but for those that are there. -/
theorem Inv.activePlugins {active : List String} (h : Inv s) (hclients : (active.map toLower).Nodup)
    (hnamed : "" ∉ active)
    (hkeep : ∀ callsign, (s.told callsign).isSome → callsign ∈ active) :
    Inv { s with active := active } where
  clients := hclients
  told callsign focused hsome := by
    replace hsome : s.told callsign = some focused := hsome
    refine (h.told callsign focused hsome).imp_right fun hdue => ?_
    obtain ⟨call, hmem, howes⟩ := hdue
    refine ⟨call, hmem, Call.owes_mono h.clients hclients (fun _ => hkeep callsign ?_) howes⟩
    rw [hsome]
    rfl
  fresh := h.fresh
  active := hkeep
  named := hnamed
  alone := h.alone
  moves := h.moves

/-- A plugin is told by its own coming or going. -/
theorem Inv.plugin {value : Option Bool} (h : Inv s)
    (hactive : value.isSome → callsign ∈ s.active)
    (htold : ∀ focused ∈ value, focused = s.onFocus callsign ∨ Due s callsign (s.onFocus callsign)) :
    Inv { s with told := Function.update s.told callsign value } where
  clients := h.clients
  told other focused hsome := by
    replace hsome : Function.update s.told callsign value other = some focused := hsome
    by_cases hsame : other = callsign
    · subst hsame
      rw [Function.update_self] at hsome
      exact htold focused hsome
    · rw [Function.update_of_ne hsame] at hsome
      exact h.told other focused hsome
  fresh := h.fresh
  active other hsome := by
    replace hsome : (Function.update s.told callsign value other).isSome := hsome
    by_cases hsame : other = callsign
    · subst hsame
      rw [Function.update_self] at hsome
      exact hactive hsome
    · rw [Function.update_of_ne hsame] at hsome
      exact h.active other hsome
  named := h.named
  alone := h.alone
  moves := h.moves

theorem Inv.setFocus (h : Inv s) (client : String) :
    Inv { s with calls := s.calls ++ [⟨client, .entered⟩] } where
  clients := h.clients
  told callsign focused hsome := by
    refine (h.told callsign focused hsome).imp_right fun hdue => ?_
    obtain ⟨call, hmem, howes⟩ := hdue
    exact ⟨call, List.mem_append_left _ hmem, howes⟩
  fresh := forall_mem_start h.fresh fun hnot => nomatch hnot
  active := h.active
  named := h.named
  alone := by
    show (s.calls ++ [(⟨client, .entered⟩ : Call)]).countP Call.telling ≤ 1
    rw [List.countP_append]
    exact h.alone
  moves := forall_mem_start h.moves trivial

theorem Inv.compositor (h : Inv s) (hfits : Fits s (.compositor focus)) :
    Inv { s with focused := focus } := by
  rcases hfits with rfl | ⟨hnone, hothers⟩
  · exact h
  · refine ⟨⟨h.clients, fun callsign focused hsome => .inl ?_, fun call hmem htelling => ?_⟩,
      h.active, h.named, h.alone, h.moves⟩
    · replace hsome : s.told callsign = some focused := hsome
      have hisSome : (s.told callsign).isSome := by
        rw [hsome]
        rfl
      obtain ⟨hbefore, hafter⟩ := hothers callsign (h.active callsign hisSome) hisSome
      rw [h.quiet hnone hsome]
      exact (beq_eq_false_iff_ne.mpr hbefore).trans (beq_eq_false_iff_ne.mpr hafter).symm
    · exact absurd ((hnone call hmem).symm.trans htelling) Bool.false_ne_true

theorem nodup_orderedInsert (h : (s.active.map toLower).Nodup)
    (hnew : toLower callsign ∉ s.active.map toLower) :
    ((s.active.orderedInsert (· ≤ ·) callsign).map toLower).Nodup := by
  have hperm := (List.perm_orderedInsert (· ≤ ·) callsign s.active).map toLower
  exact hperm.nodup_iff.mpr (List.nodup_cons.mpr ⟨hnew, h⟩)

/-! ## the steps -/

theorem next_check {destroyed : Bool} (hs : next s (.check i destroyed) = some s') :
    ∃ client, s.calls[i]? = some ⟨client, .entered⟩ ∧
      s' = moved s i ⟨client, .entered⟩ (if destroyed then .returned false else .checked) := by
  simp only [next] at hs
  split at hs
  case h_1 client hi => exact ⟨client, hi, (Option.some.inj hs).symm⟩
  case h_2 => cases hs

theorem next_focus {ret : Bool} (hs : next s (.focus i ret) = some s') :
    ∃ client, s.calls[i]? = some ⟨client, .checked⟩ ∧
      s' = moved (refocused s client ret) i ⟨client, .checked⟩
        (if s.focused ≠ toLower client then .changed s.focused ret else .returned ret) := by
  simp only [next] at hs
  split at hs
  case h_1 client hi => exact ⟨client, hi, (Option.some.inj hs).symm⟩
  case h_2 => cases hs

theorem next_copy (hs : next s (.copy i) = some s') :
    ∃ client previous ret, s.calls[i]? = some ⟨client, .changed previous ret⟩ ∧
      s' = moved s i ⟨client, .changed previous ret⟩ (.copied previous s.active ret) := by
  simp only [next] at hs
  split at hs
  case h_1 client previous ret hi => exact ⟨client, previous, ret, hi, (Option.some.inj hs).symm⟩
  case h_2 => cases hs

theorem next_tellPrevious {skipFocus : Bool} (hs : next s (.tellPrevious i skipFocus) = some s') :
    ∃ client previous plugins ret, s.calls[i]? = some ⟨client, .copied previous plugins ret⟩ ∧
      s' = moved (tellPrevious s previous plugins skipFocus) i
        ⟨client, .copied previous plugins ret⟩ (.toldPrevious plugins ret) := by
  simp only [next] at hs
  split at hs
  case h_1 client previous plugins ret hi =>
    exact ⟨client, previous, plugins, ret, hi, (Option.some.inj hs).symm⟩
  case h_2 => cases hs

theorem next_tellClient (hs : next s (.tellClient i) = some s') :
    ∃ client plugins ret, s.calls[i]? = some ⟨client, .toldPrevious plugins ret⟩ ∧
      s' = moved (tellClient s client plugins) i ⟨client, .toldPrevious plugins ret⟩
        (.returned ret) := by
  simp only [next] at hs
  split at hs
  case h_1 client plugins ret hi => exact ⟨client, plugins, ret, hi, (Option.some.inj hs).symm⟩
  case h_2 => cases hs

theorem next_handleInitialize {callsign : String}
    (hs : next s (.handleInitialize callsign) = some s') :
    callsign ≠ "" ∧ s' = { s with
      active := if callsign ∈ s.active then s.active
        else s.active.orderedInsert (· ≤ ·) callsign } := by
  obtain ⟨hne, h⟩ := Option.ite_none_left_eq_some.mp hs
  exact ⟨hne, (Option.some.inj h).symm⟩

theorem next_handleDeinitialized {callsign : String}
    (hs : next s (.handleDeinitialized callsign) = some s') :
    s.told callsign = none ∧ s' = { s with active := s.active.erase callsign } := by
  obtain ⟨hnone, h⟩ := Option.ite_none_right_eq_some.mp hs
  exact ⟨hnone, (Option.some.inj h).symm⟩

theorem next_activate {callsign : String} {focusable : Bool}
    (hs : next s (.activate callsign focusable) = some s') :
    (callsign ∈ s.active ∧ s.told callsign = none) ∧ s' = { s with
      told := Function.update s.told callsign (if focusable then some false else none) } := by
  obtain ⟨hcomes, h⟩ := Option.ite_none_right_eq_some.mp hs
  exact ⟨hcomes, (Option.some.inj h).symm⟩

theorem inv_next (s : Shell) (l : Label) (s' : Shell) (h : Inv s) (hfits : Fits s l)
    (hs : next s l = some s') : Inv s' := by
  cases l with
  | setFocus client =>
    obtain rfl := Option.some.inj hs
    exact h.setFocus client
  | check i destroyed =>
    obtain ⟨client, hi, rfl⟩ := next_check hs
    cases destroyed with
    | true => exact h.pass hi (fun hnot => nomatch hnot) trivial fun _ _ howes => howes.elim
    | false => exact h.pass hi (fun hnot => nomatch hnot) trivial fun _ _ howes => howes.elim
  | focus i ret =>
    obtain ⟨client, hi, rfl⟩ := next_focus hs
    by_cases hchange : s.focused ≠ toLower client
    · obtain ⟨rfl, hnone, hspelled⟩ := hfits _ (Option.mem_def.mpr hi) hchange
      rw [if_pos hchange]
      exact h.start_telling hi hchange hnone hspelled
    · rw [if_neg hchange]
      have hsame : refocused s client ret = s := by
        unfold refocused
        rw [← not_not.mp hchange, ite_self]
      rw [hsame]
      exact h.pass hi (fun hnot => nomatch hnot) trivial fun _ _ howes => howes.elim
  | copy i =>
    obtain ⟨client, previous, ret, hi, rfl⟩ := next_copy hs
    have hmoves : previous ≠ toLower client := h.moves _ (List.mem_of_getElem? hi)
    exact h.pass hi (fun _ => rfl) hmoves fun _ _ howes => howes
  | tellPrevious i skipFocus =>
    obtain ⟨client, previous, plugins, ret, hi, rfl⟩ := next_tellPrevious hs
    exact h.tellPrevious hi fun hskip => hfits hskip _ (Option.mem_def.mpr hi)
  | tellClient i =>
    obtain ⟨client, plugins, ret, hi, rfl⟩ := next_tellClient hs
    exact h.tellClient hi
  | compositor focus =>
    obtain rfl := Option.some.inj hs
    exact h.compositor hfits
  | handleInitialize callsign =>
    obtain ⟨hne, rfl⟩ := next_handleInitialize hs
    split
    case isTrue => exact h
    case isFalse hnew =>
      refine h.activePlugins (nodup_orderedInsert h.clients (hfits hnew)) (fun hmem => ?_)
        fun other hsome => List.mem_orderedInsert _ |>.mpr (.inr (h.active other hsome))
      rcases (List.mem_orderedInsert _).mp hmem with heq | hmem
      · exact hne heq.symm
      · exact h.named hmem
  | handleDeinitialized callsign =>
    obtain ⟨hnone, rfl⟩ := next_handleDeinitialized hs
    refine h.activePlugins (h.clients.sublist (List.erase_sublist.map toLower))
      (fun hmem => h.named (List.mem_of_mem_erase hmem)) fun other hsome => ?_
    refine (List.mem_erase_of_ne ?_).mpr (h.active other hsome)
    rintro rfl
    rw [hnone] at hsome
    cases hsome
  | activate callsign focusable =>
    obtain ⟨hcomes, rfl⟩ := next_activate hs
    refine h.plugin (fun _ => hcomes.1) fun focused hvalue => ?_
    cases focusable with
    | false => cases hvalue
    | true =>
      obtain rfl := Option.some.inj hvalue
      cases hfocus : s.onFocus callsign with
      | false => exact .inl rfl
      | true => exact .inr ((hfits rfl).resolve_left fun hne => hne (beq_iff_eq.mp hfocus))
  | deactivate callsign =>
    obtain rfl := Option.some.inj hs
    exact h.plugin (fun hnot => nomatch hnot) fun _ hnot => nomatch hnot

/-- **Any other step does harm at once.** -/
theorem not_right_next (s : Shell) (l : Label) (s' : Shell) (h : Inv s) (hfits : ¬ Fits s l)
    (hs : next s l = some s') : ¬ Right s' := by
  intro hafter
  cases l with
  | setFocus client => exact hfits trivial
  | check i destroyed => exact hfits trivial
  | focus i ret =>
    obtain ⟨client, hi, rfl⟩ := next_focus hs
    refine hfits fun call hcall hchange => ?_
    obtain rfl := Option.some.inj (hi.symm.trans hcall)
    replace hchange : s.focused ≠ toLower client := hchange
    rw [if_pos hchange] at hafter
    obtain ⟨hlt, -⟩ := List.getElem?_eq_some_iff.mp hi
    have hnow : toLower client = (refocused s client ret).focused :=
      hafter.fresh ⟨client, .changed s.focused ret⟩ (List.mem_set hlt _) rfl
    obtain rfl : ret = true := by
      cases ret with
      | true => rfl
      | false => exact absurd hnow.symm hchange
    have hnone : ∀ other ∈ s.calls, other.telling = false := by
      intro other hmem
      refine Bool.eq_false_iff.mpr fun htelling => hchange ?_
      -- it has set the focus that was there, and the one that is there now
      have hold := h.fresh other hmem htelling
      obtain ⟨j, hj, rfl⟩ := List.getElem_of_mem hmem
      have hne : i ≠ j := by
        rintro rfl
        rw [List.getElem?_eq_getElem hj] at hi
        rw [Option.some.inj hi] at htelling
        cases htelling
      have hmem' : s.calls[j] ∈ s.calls.set i ⟨client, .changed s.focused true⟩ := by
        refine List.mem_iff_getElem?.mpr ⟨j, ?_⟩
        rw [List.getElem?_set_ne hne]
        exact List.getElem?_eq_getElem hj
      exact hold.symm.trans (hafter.fresh _ hmem' htelling)
    refine ⟨rfl, hnone, fun callsign hactive hsome hlower => ?_⟩
    obtain ⟨focused, htold⟩ := Option.isSome_iff_exists.mp hsome
    have hbefore : s.onFocus callsign = false := by
      refine beq_eq_false_iff_ne.mpr fun heq => hchange ?_
      exact heq.symm.trans hlower
    have hfocus : (moved (refocused s client true) i ⟨client, .checked⟩
        (.changed s.focused true)).onFocus callsign = true := beq_iff_eq.mpr hlower
    have hknows := hafter.told callsign focused htold
    rw [hfocus, h.quiet hnone htold, hbefore] at hknows
    obtain ⟨other, hother, howes⟩ := hknows.resolve_left Bool.false_ne_true
    rcases List.mem_or_eq_of_mem_set hother with hother | rfl
    · exact absurd ((hnone other hother).symm.trans (Call.telling_of_owes howes)) Bool.false_ne_true
    · exact howes.1
  | copy i => exact hfits trivial
  | tellPrevious i skipFocus =>
    obtain ⟨client, previous, plugins, ret, hi, rfl⟩ := next_tellPrevious hs
    refine hfits fun hskip call hcall => ?_
    obtain rfl := Option.some.inj (hi.symm.trans hcall)
    intro callsign hloser htrue
    replace hloser : loser previous plugins = some callsign := hloser
    subst hskip
    have hsame : tellPrevious s previous plugins true = s := by
      unfold tellPrevious
      rw [hloser]
      rfl
    rw [hsame] at hafter
    have hlost : s.onFocus callsign = false := h.loser_lost (List.mem_of_getElem? hi) hloser
    have hknows := hafter.told callsign true htrue
    have hfocus : (moved s i ⟨client, .copied previous plugins ret⟩
        (.toldPrevious plugins ret)).onFocus callsign = false := hlost
    rw [hfocus] at hknows
    obtain ⟨other, hother, howes⟩ := hknows.resolve_left fun heq => Bool.false_ne_true heq.symm
    -- no other call has still to tell, and this one does not owe it any more
    obtain ⟨hlt, -⟩ := List.getElem?_eq_some_iff.mp hi
    have halone : (s.calls.set i ⟨client, .toldPrevious plugins ret⟩).countP Call.telling ≤ 1 :=
      (telling_set s hi fun _ => rfl).trans h.alone
    obtain rfl := eq_of_countP_le_one halone hother (List.mem_set hlt _)
      (Call.telling_of_owes howes) rfl
    exact Bool.false_ne_true howes.1
  | tellClient i => exact hfits trivial
  | compositor focus =>
    obtain rfl := Option.some.inj hs
    by_cases hsame : focus = s.focused
    · exact hfits (.inl hsame)
    · have hnone : ∀ call ∈ s.calls, call.telling = false := by
        intro call hmem
        refine Bool.eq_false_iff.mpr fun htelling => hsame ?_
        exact (hafter.fresh call hmem htelling).symm.trans (h.fresh call hmem htelling)
      refine hfits (.inr ⟨hnone, fun callsign _ hsome => ?_⟩)
      obtain ⟨focused, htold⟩ := Option.isSome_iff_exists.mp hsome
      have hbefore := h.quiet hnone htold
      have hnow := hafter.quiet hnone htold
      have hboth : (toLower callsign == s.focused) = (toLower callsign == focus) :=
        hbefore.symm.trans hnow
      constructor
      · intro heq
        rw [heq, beq_self_eq_true] at hboth
        exact hsame (beq_iff_eq.mp hboth.symm).symm
      · intro heq
        rw [heq, beq_self_eq_true] at hboth
        exact hsame (beq_iff_eq.mp hboth)
  | handleInitialize callsign =>
    obtain ⟨-, rfl⟩ := next_handleInitialize hs
    refine hfits fun hnew hmem => ?_
    have hclients := hafter.clients
    simp only [hnew, if_false] at hclients
    have hperm := (List.perm_orderedInsert (· ≤ ·) callsign s.active).map toLower
    exact (List.nodup_cons.mp (hperm.nodup_iff.mp hclients)).1 hmem
  | handleDeinitialized callsign => exact hfits trivial
  | activate callsign focusable =>
    obtain ⟨-, rfl⟩ := next_activate hs
    refine hfits fun hfocusable => ?_
    subst hfocusable
    by_cases hlower : toLower callsign = s.focused
    · have hknows : false = s.onFocus callsign ∨ Due s callsign (s.onFocus callsign) :=
        hafter.told callsign false (Function.update_self _ _ _)
      have hfocus : s.onFocus callsign = true := beq_iff_eq.mpr hlower
      rw [hfocus] at hknows
      exact .inr (hknows.resolve_left Bool.false_ne_true)
    · exact .inl hlower
  | deactivate callsign => exact hfits trivial

/-! ## the runs -/

/-- **Who is told that it has the focus.**  Each plugin knows, or is about to be told, exactly as long
as every step fits: the compositor does what it is asked and no call moves the focus while another has
still to tell, and so on. -/
theorem right_fits {ls : List Label} (hrun : run next start ls = some s) :
    Always next Right start ls ↔ Each next Fits start ls :=
  always_iff_each (I := Inv) (fun _ h => h.toRight) inv_next not_right_next inv_start hrun

/-- One call moves the focus to YouTube, and before it tells another one moves it to Netflix: both
think that they have it. -/
def overlapping : List Label :=
  [.handleInitialize "YouTube", .activate "YouTube" true, .handleInitialize "Netflix",
    .activate "Netflix" true, .setFocus "YouTube", .setFocus "Netflix", .check 0 false,
    .check 1 false, .focus 0 true, .focus 1 true, .copy 1, .tellPrevious 1 false, .tellClient 1,
    .copy 0, .tellPrevious 0 false, .tellClient 0]

theorem overlapping_not_right :
    ¬ Always next Right start overlapping ∧
      (run next start overlapping).map (fun s =>
        (s.focused, s.told "Netflix", s.told "YouTube", s.calls.map Call.telling)) =
        some ("netflix", some true, some true, [false, false]) := by
  refine ⟨?_, by decide +kernel⟩
  obtain ⟨s, hrun⟩ : ∃ s, run next start overlapping = some s := ⟨_, rfl⟩
  rw [right_fits hrun]
  decide +kernel

end RDKShell.Focus
