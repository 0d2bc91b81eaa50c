import EntServicesInfra.Lib.Calls
import Mathlib.Data.List.Basic

/-!
# readPropertyFromFile

A property is read from the first of its lines that gives a value; a value that starts with `$` is
the name of another property, which is read from the same file.

* `readProperty`           the function with a bound on the nesting of its calls;
* `Resolvable`, `Value`    the lines that resolve, and the value at the end of the chain;
* `Asks`                   the names that are read while a property is read;
* `scan_from`, `scan_ends` a step of the recursion: what the loop comes to, and that it does;
* `resolves_iff`           the call ends, with the value of the chain or with false if there is none,
                           exactly if no name asked for, from the property on, leads back to itself.
-/

namespace PropertyFile
open Calls Relation

abbrev Text := List Char

/-! ## the code -/

/-- the lines that `getline` reads; nothing is read after the last line feed -/
def getlines (file : Text) : List Text :=
  let pieces := file.splitOn '\n'
  if pieces.getLast? = some [] then pieces.dropLast else pieces

/-- what a line has to say about a property -/
inductive Content where
  | value (text : Text)
  | reference (name : Text)

/-- The line is no comment and starts with the property and a space or `=`. -/
def matching (property line : Text) : Bool :=
  line.head? != some '#' &&
    ((property ++ [' ']).isPrefixOf line || (property ++ ['=']).isPrefixOf line)

/-- `line.substr(line.find("=") + 1)`, which is the whole line if there is no `=` -/
def afterSeparator (line : Text) : Text :=
  match line.dropWhile (· != '=') with
  | [] => line
  | _ :: rest => rest

/-- a line feed or carriage return at the end is taken off -/
def chomp (text : Text) : Text :=
  if text.getLast? = some '\r' ∨ text.getLast? = some '\n' then text.dropLast else text

def contentOf (line : Text) : Content :=
  match afterSeparator line with
  | '$' :: name => .reference name
  | text => .value (chomp text)

/-- The loop over the lines; `call` is the recursive call, which may not have ended. -/
def scan (call : Text → Option (Option Text)) (property : Text) :
    List Text → Option (Option Text)
  | [] => some none
  | line :: lines =>
    if matching property line then
      match contentOf line with
      | .value text => some (some text)
      | .reference name =>
        match call name with
        | some none => scan call property lines
        | outcome => outcome
    else scan call property lines

/-- The outcome of the call if no more than so many calls are nested: `some none` is false, with an
empty value, and `none` says that there are more. -/
def readProperty (lines : List Text) : (depth : ℕ) → (property : Text) → Option (Option Text)
  | 0, _ => none
  | depth + 1, property => scan (readProperty lines depth) property lines

/-- The call ends with this outcome. -/
def Returns (lines : List Text) (property : Text) (outcome : Option Text) : Prop :=
  ∃ depth, readProperty lines depth property = some outcome

/-! ## what is expected -/

section
variable (lines : List Text)

/-- Some line of the property gives a value, itself or by a reference that resolves. -/
inductive Resolvable : Text → Prop
  | value {property line text : Text} (hline : line ∈ lines) (hmatch : matching property line)
      (hcontent : contentOf line = .value text) : Resolvable property
  | reference {property line name : Text} (hline : line ∈ lines) (hmatch : matching property line)
      (hcontent : contentOf line = .reference name) (hname : Resolvable name) : Resolvable property

/-- The line is passed over: it is not one of the property, or a reference that does not resolve. -/
def Passed (property line : Text) : Prop :=
  matching property line → ∃ name, contentOf line = .reference name ∧ ¬ Resolvable lines name

/-- The line is the first one of the property that resolves. -/
def FirstResolving (property line : Text) : Prop :=
  ∃ before after, lines = before ++ line :: after ∧ matching property line ∧
    ∀ l ∈ before, Passed lines property l

/-- The chain of references ends in this value. -/
inductive Value : Text → Text → Prop
  | value {property line text : Text} (hfirst : FirstResolving lines property line)
      (hcontent : contentOf line = .value text) : Value property text
  | reference {property line name text : Text} (hfirst : FirstResolving lines property line)
      (hcontent : contentOf line = .reference name) (hname : Value name text) :
      Value property text

/-- The name is read while the property is read: a line refers to it, and those before it are
passed over. -/
def Asks (property name : Text) : Prop :=
  ∃ before line after, lines = before ++ line :: after ∧ matching property line ∧
    contentOf line = .reference name ∧ ∀ l ∈ before, Passed lines property l

end

/-- The call ends, with the value of the chain, or with false if there is no such value. -/
def ReadsChain (file property : Text) : Prop :=
  ∃ outcome, Returns (getlines file) property outcome ∧
    ∀ text, outcome = some text ↔ Value (getlines file) property text

/-! ## the loop -/

section
variable {lines : List Text} {property : Text} {call : Text → Option (Option Text)}

theorem scan_cons_skip {line : Text} (hmatch : ¬ matching property line) (rest : List Text) :
    scan call property (line :: rest) = scan call property rest := by
  rw [scan, if_neg hmatch]

theorem scan_cons_value {line text : Text} (hmatch : matching property line)
    (hcontent : contentOf line = .value text) (rest : List Text) :
    scan call property (line :: rest) = some (some text) := by
  rw [scan, if_pos hmatch, hcontent]

theorem scan_cons_reference {line name : Text} (hmatch : matching property line)
    (hcontent : contentOf line = .reference name) (rest : List Text) :
    scan call property (line :: rest) =
      match call name with
      | some none => scan call property rest
      | outcome => outcome := by
  rw [scan, if_pos hmatch, hcontent]

/-- If the loop ends at a reference, the call for the name has ended. -/
theorem call_of_scan {line name : Text} (hmatch : matching property line)
    (hcontent : contentOf line = .reference name) {rest : List Text} {outcome : Option Text}
    (h : scan call property (line :: rest) = some outcome) :
    (call name = some none ∧ scan call property rest = some outcome) ∨
      ∃ text, call name = some (some text) ∧ outcome = some text := by
  rw [scan_cons_reference hmatch hcontent] at h
  cases hcall : call name with
  | none =>
    rw [hcall] at h
    cases h
  | some result =>
    rw [hcall] at h
    cases result with
    | none => exact .inl ⟨rfl, h⟩
    | some text => exact .inr ⟨text, rfl, (Option.some.inj h).symm⟩

/-- What returns with fewer calls returns the same with more. -/
theorem scan_mono {call' : Text → Option (Option Text)}
    (hcall : ∀ name outcome, call name = some outcome → call' name = some outcome)
    {rest : List Text} {outcome : Option Text} (h : scan call property rest = some outcome) :
    scan call' property rest = some outcome := by
  induction rest with
  | nil => exact h
  | cons line rest ih =>
    by_cases hmatch : matching property line
    · cases hcontent : contentOf line with
      | value text =>
        rw [scan_cons_value hmatch hcontent] at h ⊢
        exact h
      | reference name =>
        rw [scan_cons_reference hmatch hcontent]
        rcases call_of_scan hmatch hcontent h with ⟨hname, hrest⟩ | ⟨text, hname, rfl⟩
        · rw [hcall name none hname]
          exact ih hrest
        · rw [hcall name (some text) hname]
    · rw [scan_cons_skip hmatch] at h ⊢
      exact ih h

section
variable (hcall : ∀ name outcome, call name = some outcome →
  (outcome = none ↔ ¬ Resolvable lines name))
include hcall

/-- Lines that are passed over do not count. -/
theorem scan_passed {before rest : List Text} (hbefore : ∀ l ∈ before, Passed lines property l)
    {outcome : Option Text} (h : scan call property (before ++ rest) = some outcome) :
    scan call property rest = some outcome := by
  induction before with
  | nil => exact h
  | cons line before ih =>
    obtain ⟨hline, hrest⟩ := List.forall_mem_cons.mp hbefore
    apply ih hrest
    rw [List.cons_append] at h
    by_cases hmatch : matching property line
    · obtain ⟨name, hcontent, hname⟩ := hline hmatch
      rcases call_of_scan hmatch hcontent h with ⟨-, hscan⟩ | ⟨text, hresult, -⟩
      · exact hscan
      · exact absurd ((hcall name (some text) hresult).mpr hname) nofun
    · rw [scan_cons_skip hmatch] at h
      exact h

/-- The loop gives false exactly if it passes over all lines. -/
theorem scan_none_iff {rest : List Text} {outcome : Option Text}
    (h : scan call property rest = some outcome) :
    outcome = none ↔ ∀ l ∈ rest, Passed lines property l := by
  induction rest with
  | nil =>
    obtain rfl := Option.some.inj h
    exact ⟨fun _ => nofun, fun _ => rfl⟩
  | cons line rest ih =>
    rw [List.forall_mem_cons]
    by_cases hmatch : matching property line
    · cases hcontent : contentOf line with
      | value text =>
        rw [scan_cons_value hmatch hcontent] at h
        obtain rfl := Option.some.inj h
        refine ⟨nofun, fun hall => ?_⟩
        obtain ⟨name, hname, -⟩ := hall.1 hmatch
        rw [hcontent] at hname
        cases hname
      | reference name =>
        have hline : Passed lines property line ↔ ¬ Resolvable lines name := by
          constructor
          · intro hpassed
            obtain ⟨name', hcontent', hname'⟩ := hpassed hmatch
            rw [hcontent] at hcontent'
            obtain rfl := Content.reference.inj hcontent'
            exact hname'
          · exact fun hname _ => ⟨name, hcontent, hname⟩
        rw [hline]
        rcases call_of_scan hmatch hcontent h with ⟨hresult, hrest⟩ | ⟨text, hresult, rfl⟩
        · rw [← hcall name none hresult, ih hrest]
          exact ⟨fun hall => ⟨rfl, hall⟩, And.right⟩
        · rw [← hcall name (some text) hresult]
          exact ⟨nofun, fun hall => absurd hall.1 nofun⟩
    · rw [scan_cons_skip hmatch] at h
      rw [ih h]
      exact ⟨fun hall => ⟨fun hyes => absurd hyes hmatch, hall⟩, And.right⟩

end

theorem resolvable_iff : Resolvable lines property ↔ ∃ l ∈ lines, ¬ Passed lines property l := by
  constructor
  · rintro (⟨hline, hmatch, hcontent⟩ | ⟨hline, hmatch, hcontent, hname⟩)
    · refine ⟨_, hline, fun hpassed => ?_⟩
      obtain ⟨name, hcontent', -⟩ := hpassed hmatch
      rw [hcontent] at hcontent'
      cases hcontent'
    · refine ⟨_, hline, fun hpassed => ?_⟩
      obtain ⟨name', hcontent', hname'⟩ := hpassed hmatch
      rw [hcontent] at hcontent'
      obtain rfl := Content.reference.inj hcontent'
      exact hname' hname
  · rintro ⟨l, hl, hno⟩
    obtain ⟨hmatch, hall⟩ := not_forall.mp hno
    cases hcontent : contentOf l with
    | value text => exact .value hl hmatch hcontent
    | reference name =>
      refine .reference hl hmatch hcontent (not_not.mp fun hname => ?_)
      exact hall ⟨name, hcontent, hname⟩

/-! ## what a call returns -/

theorem read_none_iff {depth : ℕ} {outcome : Option Text}
    (h : readProperty lines depth property = some outcome) :
    outcome = none ↔ ¬ Resolvable lines property := by
  induction depth generalizing property outcome with
  | zero => cases h
  | succ depth ih =>
    rw [scan_none_iff (fun _ _ hname => ih hname) h, resolvable_iff]
    push Not
    exact Iff.rfl

theorem read_succ {depth : ℕ} {outcome : Option Text}
    (h : readProperty lines depth property = some outcome) :
    readProperty lines (depth + 1) property = some outcome := by
  induction depth generalizing property outcome with
  | zero => cases h
  | succ depth ih => exact scan_mono (fun _ _ hname => ih hname) h

theorem read_mono {depth depth' : ℕ} (hle : depth ≤ depth') {outcome : Option Text}
    (h : readProperty lines depth property = some outcome) :
    readProperty lines depth' property = some outcome := by
  induction hle with
  | refl => exact h
  | step _ ih => exact read_succ ih

theorem passed_concat {before : List Text} {line : Text}
    (hbefore : ∀ l ∈ before, Passed lines property l) (hline : Passed lines property line) :
    ∀ l ∈ before ++ [line], Passed lines property l := by
  intro l hl
  rcases List.mem_append.mp hl with hl | hl
  · exact hbefore l hl
  · rw [List.mem_singleton.mp hl]
    exact hline

/-- A value that is returned is that of the chain. -/
theorem scan_value (hcall : ∀ name outcome, call name = some outcome →
      (outcome = none ↔ ¬ Resolvable lines name))
    (hvalue : ∀ name text, call name = some (some text) → Value lines name text)
    {before rest : List Text} (hlines : lines = before ++ rest)
    (hbefore : ∀ l ∈ before, Passed lines property l) {text : Text}
    (h : scan call property rest = some (some text)) : Value lines property text := by
  induction rest generalizing before with
  | nil => cases h
  | cons line rest ih =>
    have hnext : Passed lines property line → scan call property rest = some (some text) →
        Value lines property text := by
      intro hpassed hrest
      exact @ih (before ++ [line]) (hlines.trans (List.append_cons ..))
        (passed_concat hbefore hpassed) hrest
    by_cases hmatch : matching property line
    · cases hcontent : contentOf line with
      | value text' =>
        rw [scan_cons_value hmatch hcontent] at h
        obtain rfl := Option.some.inj (Option.some.inj h)
        exact .value ⟨before, rest, hlines, hmatch, hbefore⟩ hcontent
      | reference name =>
        rcases call_of_scan hmatch hcontent h with ⟨hresult, hrest⟩ | ⟨text', hresult, htext⟩
        · exact hnext (fun _ => ⟨name, hcontent, (hcall name none hresult).mp rfl⟩) hrest
        · obtain rfl := Option.some.inj htext
          exact .reference ⟨before, rest, hlines, hmatch, hbefore⟩ hcontent
            (hvalue name text hresult)
    · rw [scan_cons_skip hmatch] at h
      exact hnext (fun hyes => absurd hyes hmatch) h

theorem read_value {depth : ℕ} {text : Text}
    (h : readProperty lines depth property = some (some text)) : Value lines property text := by
  induction depth generalizing property text with
  | zero => cases h
  | succ depth ih =>
    exact @scan_value _ _ _ (fun _ _ hname => read_none_iff hname) (fun _ _ hname => ih hname)
      [] _ rfl nofun _ h

/-- The lines before the first one that counts are passed over by the call. -/
theorem scan_from {before rest : List Text} (hlines : lines = before ++ rest)
    (hbefore : ∀ l ∈ before, Passed lines property l) {depth : ℕ} {outcome : Option Text}
    (h : readProperty lines (depth + 1) property = some outcome) :
    scan (readProperty lines depth) property rest = some outcome := by
  apply scan_passed (fun _ _ hname => read_none_iff hname) hbefore
  rw [← hlines]
  exact h

/-- A call that ends returns the value of the chain. -/
theorem Value.read {text : Text} (hvalue : Value lines property text) {depth : ℕ}
    {outcome : Option Text} (h : readProperty lines depth property = some outcome) :
    outcome = some text := by
  induction hvalue generalizing depth outcome with
  | value hfirst hcontent =>
    obtain ⟨before, after, hlines, hmatch, hbefore⟩ := hfirst
    cases depth with
    | zero => cases h
    | succ depth =>
      have hscan := scan_from hlines hbefore h
      rw [scan_cons_value hmatch hcontent] at hscan
      exact (Option.some.inj hscan).symm
  | @reference property line name text hfirst hcontent _ ih =>
    obtain ⟨before, after, hlines, hmatch, hbefore⟩ := hfirst
    cases depth with
    | zero => cases h
    | succ depth =>
      rcases call_of_scan hmatch hcontent (scan_from hlines hbefore h) with
        ⟨hname, -⟩ | ⟨found, hname, rfl⟩
      · exact absurd (ih hname) nofun
      · exact ih hname

/-! ## when a call ends -/

theorem acc_of_read {depth : ℕ} {outcome : Option Text}
    (h : readProperty lines depth property = some outcome) :
    Acc (fun y x => Asks lines x y) property := by
  induction depth generalizing property outcome with
  | zero => cases h
  | succ depth ih =>
    refine Acc.intro _ fun name hasks => ?_
    obtain ⟨before, line, after, hlines, hmatch, hcontent, hbefore⟩ := hasks
    rcases call_of_scan hmatch hcontent (scan_from hlines hbefore h) with
      ⟨hname, -⟩ | ⟨text, hname, -⟩
    · exact ih hname
    · exact ih hname

/-- If the calls for the names asked for end, so does the loop. -/
theorem scan_ends (hasked : ∀ name, Asks lines property name →
      ∃ depth outcome, readProperty lines depth name = some outcome)
    {before rest : List Text} (hlines : lines = before ++ rest)
    (hbefore : ∀ l ∈ before, Passed lines property l) :
    ∃ depth outcome, scan (readProperty lines depth) property rest = some outcome := by
  induction rest generalizing before with
  | nil => exact ⟨0, none, rfl⟩
  | cons line rest ih =>
    have hnext (hpassed : Passed lines property line) :
        ∃ depth outcome, scan (readProperty lines depth) property rest = some outcome :=
      @ih (before ++ [line]) (hlines.trans (List.append_cons ..))
        (passed_concat hbefore hpassed)
    by_cases hmatch : matching property line
    · cases hcontent : contentOf line with
      | value text => exact ⟨0, some text, scan_cons_value hmatch hcontent rest⟩
      | reference name =>
        obtain ⟨depth, outcome, hname⟩ :=
          hasked name ⟨before, line, rest, hlines, hmatch, hcontent, hbefore⟩
        cases outcome with
        | some text =>
          refine ⟨depth, some text, ?_⟩
          rw [scan_cons_reference hmatch hcontent, hname]
        | none =>
          obtain ⟨depth', outcome, hrest⟩ :=
            hnext fun _ => ⟨name, hcontent, (read_none_iff hname).mp rfl⟩
          refine ⟨max depth depth', outcome, ?_⟩
          rw [scan_cons_reference hmatch hcontent, read_mono (le_max_left depth depth') hname]
          exact scan_mono (fun _ _ hread => read_mono (le_max_right depth depth') hread) hrest
    · obtain ⟨depth, outcome, hrest⟩ := hnext fun hyes => absurd hyes hmatch
      refine ⟨depth, outcome, ?_⟩
      rw [scan_cons_skip hmatch]
      exact hrest

theorem read_of_acc (h : Acc (fun y x => Asks lines x y) property) :
    ∃ depth outcome, readProperty lines depth property = some outcome := by
  induction h with
  | intro property _ ih =>
    obtain ⟨depth, outcome, hscan⟩ := @scan_ends _ property ih [] lines rfl nofun
    exact ⟨depth + 1, outcome, hscan⟩

/-- what the content of a line is made of -/
def Content.text : Content → Text
  | .value text => text
  | .reference name => name

/-- Only the names that stand in a line are asked for. -/
theorem asks_finite : {name | ∃ property, Asks lines property name}.Finite := by
  apply (lines.map fun line => (contentOf line).text).finite_toSet.subset
  rintro name ⟨property, before, line, after, hlines, -, hcontent, -⟩
  apply List.mem_map.mpr
  refine ⟨line, ?_, ?_⟩
  · rw [hlines]
    exact List.mem_append_right before List.mem_cons_self
  · rw [hcontent]
    rfl

end

/-- The call ends, with the value that the chain of references has, or false if it has none, exactly
if no name that is asked for is asked for again in its own call. -/
theorem resolves_iff (file property : Text) :
    ReadsChain file property ↔ ∀ name, ReflTransGen (Asks (getlines file)) property name →
      ¬ TransGen (Asks (getlines file)) name name := by
  rw [← acc_iff_no_cycle asks_finite]
  constructor
  · rintro ⟨outcome, ⟨depth, hread⟩, -⟩
    exact acc_of_read hread
  · intro hacc
    obtain ⟨depth, outcome, hread⟩ := read_of_acc hacc
    refine ⟨outcome, ⟨depth, hread⟩, fun text => ?_⟩
    constructor
    · rintro rfl
      exact read_value hread
    · exact fun hvalue => hvalue.read hread

/-- Two lines that define a property by itself: each call starts the next. -/
theorem own_name_endless : ¬ ReadsChain "A=$A\nA=$A\n".toList "A".toList := by
  rintro ⟨outcome, ⟨depth, hread⟩, -⟩
  have hlines : getlines "A=$A\nA=$A\n".toList = ["A=$A".toList, "A=$A".toList] := by decide
  rw [hlines] at hread
  have hno : ∀ depth, readProperty ["A=$A".toList, "A=$A".toList] depth "A".toList = none := by
    intro depth
    induction depth with
    | zero => rfl
    | succ depth ih =>
      show scan _ _ _ = none
      rw [@scan_cons_reference _ _ _ "A".toList rfl rfl, ih]
  rw [hno depth] at hread
  cases hread

end PropertyFile
