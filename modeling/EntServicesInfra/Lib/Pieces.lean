import Mathlib.Data.List.Basic

/-!
# Pieces between separators

A list is free of separators, or it is a free piece, a separator and a list.

* `cut_induction`           the rule of induction that goes with this;
* `free_of_mem`, `length_pieces`, `interleave_pieces`
                            the pieces are free, one more than the separators, and give the list back
                            with the separators between them;
* `pieces_interleave`       these are the only pieces that do.
-/

namespace Pieces

variable {α : Type*} {p : α → Bool}

/-- no separator is among them -/
def Free (p : α → Bool) (piece : List α) : Prop := ∀ c ∈ piece, p c = false

theorem Free.concat {piece : List α} (h : Free p piece) {c : α} (hc : ¬ p c) :
    Free p (piece ++ [c]) := by
  show ∀ d ∈ piece ++ [c], p d = false
  rw [List.forall_mem_append, List.forall_mem_singleton]
  exact ⟨h, Bool.eq_false_iff.mpr hc⟩

@[elab_as_elim]
theorem cut_induction (p : α → Bool) {motive : List α → Prop}
    (last : ∀ piece, Free p piece → motive piece)
    (cut : ∀ piece sep rest, Free p piece → p sep → motive rest → motive (piece ++ sep :: rest))
    (l : List α) : motive l := by
  -- the piece that has been read so far is carried along
  have hfrom : ∀ piece, Free p piece → motive (piece ++ l) := by
    induction l with
    | nil =>
      intro piece hpiece
      rw [List.append_nil]
      exact last piece hpiece
    | cons c l ih =>
      intro piece hpiece
      by_cases hc : p c
      · exact cut piece c l hpiece hc (ih [] nofun)
      · rw [List.append_cons]
        exact ih (piece ++ [c]) (hpiece.concat hc)
  exact hfrom [] nofun

theorem free_of_mem {l piece : List α} (h : piece ∈ l.splitOnP p) : Free p piece := by
  induction l using cut_induction p with
  | last first hfirst =>
    rw [List.splitOnP_eq_singleton hfirst, List.mem_singleton] at h
    rw [h]
    exact hfirst
  | cut first sep rest hfirst hsep ih =>
    rw [List.splitOnP_append_cons_of_forall_mem hfirst sep hsep] at h
    rcases List.mem_cons.mp h with rfl | h
    · exact hfirst
    · exact ih h

theorem countP_free {piece : List α} (h : Free p piece) : piece.countP p = 0 :=
  List.countP_eq_zero.mpr fun c hc => Bool.eq_false_iff.mp (h c hc)

theorem filter_free {piece : List α} (h : Free p piece) : piece.filter p = [] :=
  List.filter_eq_nil_iff.mpr fun c hc => Bool.eq_false_iff.mp (h c hc)

theorem length_pieces (l : List α) : (l.splitOnP p).length = l.countP p + 1 := by
  induction l using cut_induction p with
  | last piece hpiece =>
    rw [List.splitOnP_eq_singleton hpiece, countP_free hpiece]
    rfl
  | cut piece sep rest hpiece hsep ih =>
    rw [List.splitOnP_append_cons_of_forall_mem hpiece sep hsep, List.length_cons, ih,
      List.countP_append, countP_free hpiece, List.countP_cons_of_pos hsep]
    omega

/-- the pieces with the separators between them -/
def interleave : List (List α) → List α → List α
  | [], _ => []
  | piece :: _, [] => piece
  | piece :: pieces, sep :: seps => piece ++ sep :: interleave pieces seps

theorem interleave_pieces (l : List α) : interleave (l.splitOnP p) (l.filter p) = l := by
  induction l using cut_induction p with
  | last piece hpiece =>
    rw [List.splitOnP_eq_singleton hpiece, filter_free hpiece]
    rfl
  | cut piece sep rest hpiece hsep ih =>
    rw [List.splitOnP_append_cons_of_forall_mem hpiece sep hsep, List.filter_append,
      filter_free hpiece, List.filter_cons_of_pos hsep]
    show piece ++ sep :: interleave (rest.splitOnP p) (rest.filter p) = _
    rw [ih]

theorem pieces_interleave {pieces : List (List α)} {seps : List α}
    (hpieces : ∀ piece ∈ pieces, Free p piece) (hseps : ∀ sep ∈ seps, p sep)
    (hlength : pieces.length = seps.length + 1) :
    (interleave pieces seps).splitOnP p = pieces := by
  induction seps generalizing pieces with
  | nil =>
    obtain ⟨piece, rfl⟩ := List.length_eq_one_iff.mp hlength
    exact List.splitOnP_eq_singleton (hpieces piece List.mem_cons_self)
  | cons sep seps ih =>
    obtain ⟨piece, rest, rfl⟩ := List.exists_cons_of_length_eq_add_one hlength
    obtain ⟨hpiece, hrest⟩ := List.forall_mem_cons.mp hpieces
    obtain ⟨hsep, hmore⟩ := List.forall_mem_cons.mp hseps
    show (piece ++ sep :: interleave rest seps).splitOnP p = piece :: rest
    rw [List.splitOnP_append_cons_of_forall_mem hpiece sep hsep,
      ih hrest hmore (Nat.succ.inj hlength)]

end Pieces
