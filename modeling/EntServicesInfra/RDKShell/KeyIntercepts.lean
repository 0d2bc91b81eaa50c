import EntServicesInfra.Lib.Histories
import EntServicesInfra.RDKShell.Variants

/-!
# RDKShell: `addKeyIntercepts`

Every entry of the request has a client and keys, and every key a code and modifiers.  Malformed
entries and keys are passed over, and every key that is well formed is submitted to the compositor.
One variable `ret` takes the result of each of these in turn.

* `items`              the entries and keys of a request in the order of the loops, each malformed or
                       to be submitted;
* `Reports`            every key is submitted, and the result says whether all is well;
* `ret_eq_last`        the result is that of the last item;
* `reports_iff`        so it reports every failure exactly if the last item fails or none does.
-/

namespace RDKShell.KeyIntercepts
open Histories

/-! ## the request -/

/-- the flags of the compositor -/
structure Flags where
  RDKSHELL_FLAGS_CONTROL : UInt32
  RDKSHELL_FLAGS_SHIFT : UInt32
  RDKSHELL_FLAGS_ALT : UInt32

section
variable {Value : Type} (F : Flags) (V : Variant Value) (results : ℕ → Bool)

def getKeyFlag (modifier : String) : UInt32 :=
  if modifier = "ctrl" then F.RDKSHELL_FLAGS_CONTROL
  else if modifier = "shift" then F.RDKSHELL_FLAGS_SHIFT
  else if modifier = "alt" then F.RDKSHELL_FLAGS_ALT
  else 0

/-- a call of `CompositorController::addKeyIntercept` -/
structure Intercept where
  client : String
  keyCode : UInt32
  flags : UInt32
deriving DecidableEq, Repr

/-- The calls of the compositor so far, in order, and `ret`.  The result of the call with `n` calls
before it is `results n`. -/
structure Progress where
  submitted : List Intercept
  ret : Bool
deriving DecidableEq, Repr

def flagsOf (modifiers : List String) : UInt32 :=
  modifiers.foldl (fun flags modifier => flags ||| getKeyFlag F modifier) 0

def addKeyIntercept (p : Progress) (keyCode : UInt32) (modifiers : List String) (client : String) :
    Progress where
  submitted := p.submitted ++ [⟨client, keyCode, flagsOf F modifiers⟩]
  ret := results p.submitted.length

/-- one turn of the inner loop -/
def addKey (client : String) (p : Progress) (key : Value) : Progress :=
  if V.isObject key then
    match V.label key "keyCode" with
    | none => { p with ret := false }
    | some keyCode =>
      let modifiers := (V.arrayAt key "modifiers").map V.string
      addKeyIntercept F results p (V.number keyCode).toUInt64.toUInt32 modifiers client
  else { p with ret := false }

/-- one turn of the outer loop -/
def addEntry (p : Progress) (entry : Value) : Progress :=
  if V.isObject entry then
    match V.label entry "keys", V.label entry "client" with
    | some keys, some client => (V.array keys).foldl (addKey F V results (V.string client)) p
    | _, _ => { p with ret := false }
  else { p with ret := false }

def addKeyIntercepts (intercepts : List Value) : Progress :=
  intercepts.foldl (addEntry F V results) ⟨[], true⟩

/-! ## its items -/

/-- an entry or a key that is passed over, or a key that is submitted -/
inductive Item where
  | malformed
  | key (client : String) (keyCode : UInt32) (modifiers : List String)
deriving DecidableEq, Repr

def keyItem (client : String) (key : Value) : Item :=
  if V.isObject key then
    match V.label key "keyCode" with
    | none => .malformed
    | some keyCode =>
      .key client (V.number keyCode).toUInt64.toUInt32 ((V.arrayAt key "modifiers").map V.string)
  else .malformed

def entryItems (entry : Value) : List Item :=
  if V.isObject entry then
    match V.label entry "keys", V.label entry "client" with
    | some keys, some client => (V.array keys).map (keyItem V (V.string client))
    | _, _ => [.malformed]
  else [.malformed]

def items (intercepts : List Value) : List Item := intercepts.flatMap (entryItems V)

/-- what is submitted for an item -/
def Item.intercept : Item → Option Intercept
  | .malformed => none
  | .key client keyCode modifiers => some ⟨client, keyCode, flagsOf F modifiers⟩

/-- the keys that are well formed -/
def keys (items : List Item) : List Intercept := items.filterMap (Item.intercept F)

/-! ## what is expected -/

/-- The item with these before it is well formed and its submission succeeds. -/
def Well (before : List Item) : Item → Prop
  | .malformed => False
  | .key _ _ _ => results (keys F before).length = true

def AllWell : List Item → Prop := Throughout (Well F results)

/-- **Every failure is reported.**  The flags of a key are those of its modifiers. -/
structure Reports (items : List Item) (p : Progress) : Prop where
  submitted : p.submitted = keys F items
  flags : ∀ client keyCode modifiers, Item.key client keyCode modifiers ∈ items →
    ∀ i, (flagsOf F modifiers).toNat.testBit i =
      modifiers.any fun modifier => (getKeyFlag F modifier).toNat.testBit i
  ret : p.ret = true ↔ AllWell F results items

end

/-! ## the loops -/

variable {Value : Type} {F : Flags} {V : Variant Value} {results : ℕ → Bool}

/-- what an item does -/
def step (F : Flags) (results : ℕ → Bool) (p : Progress) : Item → Progress
  | .malformed => { p with ret := false }
  | .key client keyCode modifiers => addKeyIntercept F results p keyCode modifiers client

theorem addKey_eq (client : String) (p : Progress) (key : Value) :
    addKey F V results client p key = step F results p (keyItem V client key) := by
  unfold addKey keyItem
  split
  · split
    · rfl
    · rfl
  · rfl

theorem addEntry_eq (p : Progress) (entry : Value) :
    addEntry F V results p entry = (entryItems V entry).foldl (step F results) p := by
  unfold addEntry entryItems
  split
  · split
    · rw [List.foldl_map]
      congr 1
      funext p key
      exact addKey_eq _ p key
    · rfl
  · rfl

theorem addKeyIntercepts_eq (intercepts : List Value) :
    addKeyIntercepts F V results intercepts =
      (items V intercepts).foldl (step F results) ⟨[], true⟩ := by
  unfold addKeyIntercepts items
  rw [List.foldl_flatMap]
  congr 1
  funext p entry
  exact addEntry_eq p entry

theorem submitted_step (p : Progress) (item : Item) :
    (step F results p item).submitted = p.submitted ++ (item.intercept F).toList := by
  cases item with
  | malformed => exact (List.append_nil _).symm
  | key client keyCode modifiers => rfl

/-- Each well-formed key is submitted, in order. -/
theorem submitted_foldl (items : List Item) (p : Progress) :
    (items.foldl (step F results) p).submitted = p.submitted ++ keys F items := by
  induction items generalizing p with
  | nil => exact (List.append_nil _).symm
  | cons item items ih =>
    rw [List.foldl_cons, ih, submitted_step, List.append_assoc]
    congr 1
    unfold keys
    cases item with
    | malformed => rfl
    | key client keyCode modifiers => rfl

theorem ret_step {before : List Item} {p : Progress} (hp : p.submitted = keys F before)
    (item : Item) : (step F results p item).ret = true ↔ Well F results before item := by
  cases item with
  | malformed => exact iff_of_false Bool.false_ne_true not_false
  | key client keyCode modifiers =>
    show results p.submitted.length = true ↔ results (keys F before).length = true
    rw [hp]

/-- **The result is that of the last item.** -/
theorem ret_eq_last (before : List Item) (last : Item) :
    ((before ++ [last]).foldl (step F results) ⟨[], true⟩).ret = true ↔
      Well F results before last := by
  rw [List.foldl_append]
  exact ret_step (submitted_foldl before ⟨[], true⟩) last

theorem testBit_flagsOf (modifiers : List String) (i : ℕ) :
    (flagsOf F modifiers).toNat.testBit i =
      modifiers.any fun modifier => (getKeyFlag F modifier).toNat.testBit i := by
  have hfold : ∀ flags : UInt32, (modifiers.foldl
      (fun flags modifier => flags ||| getKeyFlag F modifier) flags).toNat.testBit i =
        (flags.toNat.testBit i ||
          modifiers.any fun modifier => (getKeyFlag F modifier).toNat.testBit i) := by
    induction modifiers with
    | nil => exact fun flags => (Bool.or_false _).symm
    | cons modifier modifiers ih =>
      intro flags
      rw [List.foldl_cons, ih, UInt32.toNat_or, Nat.testBit_or, List.any_cons, Bool.or_assoc]
  unfold flagsOf
  rw [hfold]
  show (Nat.testBit 0 i || _) = _
  rw [Nat.zero_testBit, Bool.false_or]

/-- **Every failure is reported exactly if the last item fails or none does.** -/
theorem reports_iff (F : Flags) (V : Variant Value) (results : ℕ → Bool)
    (intercepts : List Value) :
    Reports F results (items V intercepts) (addKeyIntercepts F V results intercepts) ↔
      ∀ before last, items V intercepts = before ++ [last] → Well F results before last →
        AllWell F results before := by
  rw [addKeyIntercepts_eq]
  constructor
  · intro h before last heq hlast
    have hret := h.ret
    rw [heq] at hret
    exact (throughout_concat.mp (hret.mp ((ret_eq_last before last).mpr hlast))).1
  · intro h
    refine ⟨submitted_foldl _ _, fun _ _ modifiers _ => testBit_flagsOf modifiers, ?_⟩
    rcases List.eq_nil_or_concat (items V intercepts) with hnil | ⟨before, last, heq⟩
    · rw [hnil]
      exact iff_of_true rfl throughout_nil
    · rw [List.concat_eq_append] at heq
      rw [heq, ret_eq_last]
      refine Iff.trans ?_ throughout_concat.symm
      exact ⟨fun hlast => ⟨h before last heq hlast, hlast⟩, And.right⟩

/-- one bit each -/
def flags : Flags := ⟨16, 8, 32⟩

/-- Two keys for one client. -/
def twoKeys : List JsonValue :=
  [.object [("client", .string "YouTube"), ("keys", .array
    [.object [("keyCode", .number 10)], .object [("keyCode", .number 11)]])]]

/-- The first submission fails and the second one succeeds. -/
theorem first_failure_lost :
    (addKeyIntercepts flags jsonVariant (fun n => n == 1) twoKeys).ret = true ∧
      ¬ Reports flags (fun n => n == 1) (items jsonVariant twoKeys)
        (addKeyIntercepts flags jsonVariant (fun n => n == 1) twoKeys) := by
  refine ⟨rfl, fun h => ?_⟩
  have hfirst : false = true := (h.ret.mp rfl) [] _ _ rfl
  cases hfirst

end RDKShell.KeyIntercepts
