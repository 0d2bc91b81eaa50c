import EntServicesInfra.Lib.KeyValue
import Mathlib.Data.List.TakeWhile

/-!
# ExpandPropertiesInString

The variables of a string are replaced from left to right, but every turn of the loop starts again
from the text of the input before its variable, and a variable that ends with the string is not
looked up.

* `parse`, `expand`       the variables of a string, and what it is to become;
* `from_spec`             the loop replaces the last variable only, whatever came before it has a
                          value or not;
* `expands_iff`           the string is expanded exactly if the text before its last variable is its
                          own expansion, and that variable is followed by a space or a slash, or
                          becomes its name without the `$`.
-/

namespace ExpandProperties
open KeyValue

abbrev Text := List Char

/-- a character that is not one of the delimiters `" /"` -/
def inName (c : Char) : Bool := c != ' ' && c != '/'

/-- `strchr(s, '$')`: the text before the `$` and the text after it -/
def strchr (s : Text) : Option (Text × Text) :=
  match s.dropWhile (· != '$') with
  | [] => none
  | _ :: tail => some (s.takeWhile (· != '$'), tail)

theorem strchr_eq_some {s before tail : Text} (h : strchr s = some (before, tail)) :
    s = before ++ '$' :: tail ∧ '$' ∉ before := by
  unfold strchr at h
  split at h
  · cases h
  · rename_i c rest hdrop
    obtain ⟨rfl, rfl⟩ := Prod.mk.inj (Option.some.inj h)
    have hc : c = '$' := by
      have hhead := List.head?_dropWhile_not (· != '$') s
      rw [hdrop] at hhead
      simpa using hhead
    subst hc
    constructor
    · rw [← hdrop, List.takeWhile_append_dropWhile]
    · exact fun hmem => absurd (List.mem_takeWhile_imp hmem) (by decide)

theorem strchr_eq_none {s : Text} (h : strchr s = none) : '$' ∉ s := by
  unfold strchr at h
  split at h
  · rename_i hdrop
    intro hmem
    have hall := List.dropWhile_eq_nil_iff.mp hdrop '$' hmem
    exact absurd hall (by decide)
  · cases h

theorem length_tail_lt {s before tail : Text} (h : strchr s = some (before, tail)) :
    tail.length < s.length := by
  rw [(strchr_eq_some h).1, List.length_append, List.length_cons]
  omega

theorem length_dropWhile_le (p : Char → Bool) (s : Text) : (s.dropWhile p).length ≤ s.length :=
  (List.dropWhile_suffix p).length_le

section
-- the answers of `readPropertyFromFile` for the file
variable (property : Text → Option Text)

/-! ## the code -/

set_option linter.unusedVariables false in
/-- The loop at the variable that follows `before`, with `tail` after its `$`. -/
def loop (before tail : Text) : Bool × Text :=
  match hend : tail.dropWhile inName with
  | [] =>
    -- no delimiter: `endPos` is the character after the `$`
    match hnext : strchr tail with
    | some (mid, tail') => loop (before ++ '$' :: mid) tail'
    | none => (true, before ++ tail)
  | c :: rest =>
    let name := tail.takeWhile inName
    match property name with
    | none => (false, before)
    | some value =>
      match hnext : strchr (c :: rest) with
      | some (mid, tail') => loop (before ++ '$' :: name ++ mid) tail'
      | none => (true, before ++ value ++ c :: rest)
termination_by tail.length
decreasing_by
  · exact length_tail_lt hnext
  · have hlt := length_tail_lt hnext
    have hle := length_dropWhile_le inName tail
    rw [hend] at hle
    omega

/-- `expandedString` is what the caller passes. -/
def ExpandPropertiesInString (input expandedString : Text) : Bool × Text :=
  match strchr input with
  | some (before, tail) => loop property before tail
  | none => (true, expandedString)

/-! ## what the string is to become -/

set_option linter.unusedVariables false in
/-- the variables, each as the text before it and its name, and the text after the last one -/
def parse (input : Text) : List (Text × Text) × Text :=
  match hnext : strchr input with
  | none => ([], input)
  | some (before, tail) =>
    let (vars, rest) := parse (tail.dropWhile inName)
    ((before, tail.takeWhile inName) :: vars, rest)
termination_by input.length
decreasing_by
  exact Nat.lt_of_le_of_lt (length_dropWhile_le inName tail) (length_tail_lt hnext)

/-- the text of the variables as it is in the input -/
def source (vars : List (Text × Text)) : Text := vars.flatMap fun v => v.1 ++ '$' :: v.2

/-- the text with the values of the variables, if all of them have one -/
def replaced : List (Text × Text) → Option Text
  | [] => some []
  | (before, name) :: vars =>
    (property name).bind fun value => (replaced vars).map (before ++ value ++ ·)

def expand (input : Text) : Option Text :=
  (replaced property (parse input).1).map (· ++ (parse input).2)

/-- The function returns true and the expansion, or false if some name has no value. -/
def Expands (input expandedString : Text) : Prop :=
  match expand property input with
  | some text => ExpandPropertiesInString property input expandedString = (true, text)
  | none => (ExpandPropertiesInString property input expandedString).1 = false

def withoutLastDollar (s : Text) : Text :=
  match cutLast '$' s with
  | some (before, after) => before ++ after
  | none => s

/-- The text before the last variable is its own expansion, and that variable is followed by a
delimiter, or it becomes its name; unless an earlier variable has no value. -/
def LeavesNothing (input expandedString : Text) : Prop :=
  match (parse input).1.getLast? with
  | none => expandedString = input
  | some (before, name) =>
    match replaced property (parse input).1.dropLast with
    | none => True
    | some text =>
      if (parse input).2 = [] then
        ∃ value, property name = some value ∧ text ++ before ++ value = withoutLastDollar input
      else property name = none ∨ text = source (parse input).1.dropLast

theorem parse_eq_none {input : Text} (h : strchr input = none) : parse input = ([], input) := by
  rw [parse]
  split
  · rfl
  · rename_i hsome
    rw [h] at hsome
    cases hsome

theorem parse_eq_some {input before tail : Text} (h : strchr input = some (before, tail)) :
    parse input = ((before, tail.takeWhile inName) :: (parse (tail.dropWhile inName)).1,
      (parse (tail.dropWhile inName)).2) := by
  rw [parse]
  split
  · rename_i hnone
    rw [h] at hnone
    cases hnone
  · rename_i before' tail' hsome
    obtain ⟨rfl, rfl⟩ := Prod.mk.inj (Option.some.inj (h.symm.trans hsome))
    rfl

/-- Nothing of the input is lost by taking it apart. -/
theorem source_parse (input : Text) : source (parse input).1 ++ (parse input).2 = input := by
  induction hlen : input.length using Nat.strong_induction_on generalizing input with
  | h n ih =>
    cases hnext : strchr input with
    | none =>
      rw [parse_eq_none hnext]
      rfl
    | some parts =>
      obtain ⟨before, tail⟩ := parts
      have hlt : (tail.dropWhile inName).length < n :=
        hlen ▸ Nat.lt_of_le_of_lt (length_dropWhile_le inName tail) (length_tail_lt hnext)
      have hrest := ih _ hlt (tail.dropWhile inName) rfl
      rw [parse_eq_some hnext, source, List.flatMap_cons, ← source, List.append_assoc, hrest,
        (strchr_eq_some hnext).1, List.append_assoc, List.cons_append,
        List.takeWhile_append_dropWhile]

/-! ## what the loop does -/

theorem loop_unterminated {tail : Text} (before : Text) (hend : tail.dropWhile inName = []) :
    loop property before tail = (true, withoutLastDollar (before ++ '$' :: tail)) := by
  induction hlen : tail.length using Nat.strong_induction_on generalizing before tail with
  | h n ih =>
    rw [loop]
    split
    case h_2 hcons =>
      rw [hend] at hcons
      cases hcons
    case h_1 =>
      split
      case h_1 mid tail' hnext =>
        have htail : tail'.dropWhile inName = [] := by
          rw [List.dropWhile_eq_nil_iff] at hend ⊢
          intro c hc
          apply hend
          rw [(strchr_eq_some hnext).1]
          exact List.mem_append_right _ (List.mem_cons_of_mem _ hc)
        rw [ih _ (hlen ▸ length_tail_lt hnext) _ htail rfl, List.append_assoc, List.cons_append,
          ← (strchr_eq_some hnext).1]
      case h_2 hnext =>
        rw [withoutLastDollar, cutLast_append before (strchr_eq_none hnext)]

theorem loop_missing {tail : Text} (before : Text) (hend : tail.dropWhile inName ≠ [])
    (hname : property (tail.takeWhile inName) = none) :
    loop property before tail = (false, before) := by
  rw [loop]
  split
  case h_1 hnil => exact absurd hnil hend
  case h_2 => simp only [hname]

/-- After the `before` of the input, the rest `s` is searched for the next variable; `kept` is what
stands for `before` in the expansion if there is none. -/
def resume (before kept s : Text) : Bool × Text :=
  match strchr s with
  | some (mid, tail) => loop property (before ++ mid) tail
  | none => (true, kept ++ s)

theorem loop_found {tail value : Text} (before : Text) (hend : tail.dropWhile inName ≠ [])
    (hname : property (tail.takeWhile inName) = some value) :
    loop property before tail =
      resume property (before ++ '$' :: tail.takeWhile inName) (before ++ value)
        (tail.dropWhile inName) := by
  rw [loop, resume]
  split
  case h_1 hnil => exact absurd hnil hend
  case h_2 c rest hcons =>
    simp only [hname, hcons]
    split
    case h_1 mid tail' hnext => rw [hnext]
    case h_2 hnext =>
      rw [hnext]

theorem of_parse_nil {s : Text} (h : (parse s).1 = []) : strchr s = none ∧ (parse s).2 = s := by
  cases hnext : strchr s with
  | none => exact ⟨rfl, by rw [parse_eq_none hnext]⟩
  | some parts =>
    rw [parse_eq_some hnext] at h
    cases h

/-- The first variable of a string. -/
theorem of_parse_cons {s rest : Text} {v : Text × Text} {vars : List (Text × Text)}
    (h : parse s = (v :: vars, rest)) :
    ∃ tail, strchr s = some (v.1, tail) ∧ tail.takeWhile inName = v.2 ∧
      parse (tail.dropWhile inName) = (vars, rest) := by
  cases hnext : strchr s with
  | none =>
    rw [parse_eq_none hnext] at h
    cases h
  | some parts =>
    obtain ⟨before, tail⟩ := parts
    rw [parse_eq_some hnext] at h
    obtain ⟨hvars, hrest⟩ := Prod.mk.inj h
    obtain ⟨rfl, hmore⟩ := List.cons.inj hvars
    exact ⟨tail, rfl, rfl, Prod.ext hmore hrest⟩

/-- The loop comes to the last variable unless an earlier one has no value. -/
theorem resume_spec {s rest : Text} {last : Text × Text} {init : List (Text × Text)}
    (hparse : parse s = (init ++ [last], rest)) (before kept : Text) :
    match replaced property init with
    | none => (resume property before kept s).1 = false
    | some _ => ∃ tail, tail.takeWhile inName = last.2 ∧ tail.dropWhile inName = rest ∧
        strchr rest = none ∧
        resume property before kept s = loop property (before ++ source init ++ last.1) tail := by
  induction init generalizing s before kept with
  | nil =>
    obtain ⟨tail, hnext, hname, hrest⟩ := of_parse_cons hparse
    obtain ⟨hnone, hsame⟩ := of_parse_nil (congrArg Prod.fst hrest)
    have hdrop : tail.dropWhile inName = rest := hsame.symm.trans (congrArg Prod.snd hrest)
    refine ⟨tail, hname, hdrop, hdrop ▸ hnone, ?_⟩
    rw [resume, hnext]
    show _ = loop property (before ++ [] ++ last.1) tail
    rw [List.append_nil]
  | cons v init ih =>
    obtain ⟨tail, hnext, hname, hrest⟩ := of_parse_cons hparse
    have hend : tail.dropWhile inName ≠ [] := by
      intro hnil
      rw [hnil, parse_eq_none rfl] at hrest
      exact absurd (congrArg Prod.fst hrest) (by simp)
    have hloop : resume property before kept s = loop property (before ++ v.1) tail := by
      rw [resume, hnext]
    rw [hloop, replaced]
    cases hvalue : property v.2 with
    | none =>
      rw [← hname] at hvalue
      exact congrArg Prod.fst (loop_missing property (before ++ v.1) hend hvalue)
    | some value =>
      rw [← hname] at hvalue
      rw [loop_found property (before ++ v.1) hend hvalue, hname]
      have hrest' := ih hrest (before ++ v.1 ++ '$' :: v.2) (before ++ v.1 ++ value)
      rw [Option.bind_some]
      cases hinit : replaced property init with
      | none =>
        rw [hinit] at hrest'
        exact hrest'
      | some text =>
        rw [hinit] at hrest'
        obtain ⟨tail', htake, hdrop, hnone, hresume⟩ := hrest'
        refine ⟨tail', htake, hdrop, hnone, hresume.trans ?_⟩
        rw [source, source, List.flatMap_cons]
        simp only [List.append_assoc, List.cons_append]

/-! ## when the string is expanded -/

variable {property}

theorem replaced_concat {init : List (Text × Text)} {last : Text × Text} :
    replaced property (init ++ [last]) =
      (replaced property init).bind fun text =>
        (property last.2).map fun value => text ++ last.1 ++ value := by
  induction init with
  | nil =>
    show (property last.2).bind (fun value => some (last.1 ++ value ++ [])) = _
    cases property last.2 <;> simp [replaced]
  | cons v init ih =>
    rw [List.cons_append, replaced, replaced, ih]
    cases property v.2 with
    | none => rfl
    | some value =>
      cases replaced property init with
      | none => rfl
      | some text =>
        cases property last.2 with
        | none => rfl
        | some value' => simp

section
variable {input expandedString rest text : Text} {init : List (Text × Text)} {last : Text × Text}
  (hparse : parse input = (init ++ [last], rest))
include hparse

theorem expand_eq (hinit : replaced property init = some text) :
    expand property input = (property last.2).map fun value => text ++ last.1 ++ value ++ rest := by
  rw [expand, hparse, replaced_concat, hinit, Option.bind_some, Option.map_map]
  rfl

theorem leavesNothing_iff (hinit : replaced property init = some text) :
    LeavesNothing property input expandedString ↔
      if rest = [] then
        ∃ value, property last.2 = some value ∧ text ++ last.1 ++ value = withoutLastDollar input
      else property last.2 = none ∨ text = source init := by
  unfold LeavesNothing
  rw [hparse]
  dsimp only
  rw [List.getLast?_concat, List.dropLast_concat, hinit]

theorem expandProperties_eq :
    ExpandPropertiesInString property input expandedString = resume property [] [] input := by
  cases hnext : strchr input with
  | none =>
    rw [parse_eq_none hnext] at hparse
    exact absurd (congrArg Prod.fst hparse) (by simp)
  | some parts =>
    rw [ExpandPropertiesInString, resume, hnext]
    rfl

/-- An earlier variable has no value: false is returned, as it should be. -/
theorem expands_of_missing (expandedString : Text) (hinit : replaced property init = none) :
    Expands property input expandedString ∧ LeavesNothing property input expandedString := by
  have hfalse := resume_spec property hparse [] []
  rw [hinit] at hfalse
  constructor
  · unfold Expands
    rw [expand, hparse, replaced_concat, hinit, expandProperties_eq hparse]
    exact hfalse
  · unfold LeavesNothing
    rw [hparse]
    dsimp only
    rw [List.getLast?_concat, List.dropLast_concat, hinit]
    trivial

/-- The last variable ends with the string. -/
theorem expands_iff_of_end (hinit : replaced property init = some text) (hrest : rest = []) :
    Expands property input expandedString ↔ LeavesNothing property input expandedString := by
  obtain ⟨tail, htake, hdrop, -, hresume⟩ : ∃ tail, tail.takeWhile inName = last.2 ∧
      tail.dropWhile inName = rest ∧ strchr rest = none ∧
      resume property [] [] input = loop property ([] ++ source init ++ last.1) tail := by
    have hspec := resume_spec property hparse [] []
    rwa [hinit] at hspec
  have hinput : [] ++ source init ++ last.1 ++ '$' :: tail = input := by
    have hsource := source_parse input
    rw [hparse] at hsource
    have hsplit : tail = last.2 ++ rest := by
      rw [← htake, ← hdrop, List.takeWhile_append_dropWhile]
    rw [← hsource, hsplit]
    simp [source]
  rw [leavesNothing_iff hparse hinit, if_pos hrest, Expands, expand_eq hparse hinit,
    expandProperties_eq hparse, hresume, loop_unterminated property _ (hdrop.trans hrest), hinput,
    hrest]
  cases property last.2 with
  | none => simp
  | some value => simp [eq_comm]

/-- The last variable is followed by a delimiter. -/
theorem expands_iff_of_delimiter (hinit : replaced property init = some text) (hrest : rest ≠ []) :
    Expands property input expandedString ↔ LeavesNothing property input expandedString := by
  obtain ⟨tail, htake, hdrop, hnone, hresume⟩ : ∃ tail, tail.takeWhile inName = last.2 ∧
      tail.dropWhile inName = rest ∧ strchr rest = none ∧
      resume property [] [] input = loop property ([] ++ source init ++ last.1) tail := by
    have hspec := resume_spec property hparse [] []
    rwa [hinit] at hspec
  have hend : tail.dropWhile inName ≠ [] := hdrop ▸ hrest
  rw [leavesNothing_iff hparse hinit, if_neg hrest, Expands, expand_eq hparse hinit,
    expandProperties_eq hparse, hresume]
  cases hvalue : property last.2 with
  | none =>
    rw [← htake] at hvalue
    rw [loop_missing property _ hend hvalue]
    simp
  | some value =>
    rw [← htake] at hvalue
    rw [loop_found property _ hend hvalue, resume, hdrop, hnone]
    simp [eq_comm]

end

/-- **The variables are all replaced, or false is returned, exactly if the text before the last one
is its own expansion and this last one is followed by a delimiter or becomes its name.** -/
theorem expands_iff (property : Text → Option Text) (input expandedString : Text) :
    Expands property input expandedString ↔ LeavesNothing property input expandedString := by
  obtain ⟨vars, rest, hparse⟩ : ∃ vars rest, parse input = (vars, rest) := ⟨_, _, rfl⟩
  rcases List.eq_nil_or_concat vars with rfl | ⟨init, last, rfl⟩
  · obtain ⟨hnone, hsame⟩ := of_parse_nil (congrArg Prod.fst hparse)
    rw [parse_eq_none hnone] at hparse
    unfold Expands LeavesNothing expand ExpandPropertiesInString
    rw [hnone, parse_eq_none hnone]
    simp [replaced]
  · rw [List.concat_eq_append] at hparse
    cases hinit : replaced property init with
    | none =>
      obtain ⟨hexpands, hleaves⟩ := expands_of_missing hparse expandedString hinit
      exact iff_of_true hexpands hleaves
    | some text =>
      by_cases hrest : rest = []
      · exact expands_iff_of_end hparse hinit hrest
      · exact expands_iff_of_delimiter hparse hinit hrest

end

/-- the file `A=1`, `B=2` -/
def twoProperties (name : Text) : Option Text :=
  if name = ['A'] then some ['1'] else if name = ['B'] then some ['2'] else none

/-- The first of two variables is not replaced, and the second is not looked up. -/
theorem first_variable_kept :
    ExpandPropertiesInString twoProperties "/$A/$B/".toList [] = (true, "/$A/2/".toList) ∧
      expand twoProperties "/$A/$B/".toList = some "/1/2/".toList := by
  decide +kernel

end ExpandProperties
