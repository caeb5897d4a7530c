import Mathlib.Data.List.Sort
import Mathlib.Data.Prod.Lex
import Mathlib.Order.WithBot
import ReleaseDraft.Selection

/-!
# The order of merging

Instants are ordered by their seconds and then by their nanoseconds; what was never merged counts as
merged before every instant.  `Selection.Arranged xs ys` says that `ys` lists the pull requests `xs`
in the order of their merge, those merged at the same instant in the order they had.  There is
exactly one such list (`Arranged.unique`), and `Selection.sorted` gives it (`arranged_sorted`).
-/

namespace ReleaseDraft

namespace Instant

/-- Seconds first, then nanoseconds. -/
def key (t : Instant) : Int ×ₗ Nat := toLex (t.secs, t.nanos)

theorem key_injective : Function.Injective key := by
  rintro ⟨s, n⟩ ⟨s', n'⟩ h
  simpa [key] using h

instance : LinearOrder Instant := LinearOrder.lift' key key_injective

theorem lt_iff_key_lt {a b : Instant} : a < b ↔ a.key < b.key := Iff.rfl

@[simp] theorem before_eq (a b : Instant) : a.before b = decide (a < b) := by
  rw [Bool.eq_iff_iff, decide_eq_true_iff, lt_iff_key_lt, key, key, Prod.Lex.toLex_lt_toLex]
  simp [before]

@[simp] theorem notAfter_eq (a b : Instant) : a.notAfter b = decide (a ≤ b) := by
  simp [notAfter, ← not_lt]

end Instant

namespace PullRequest

/-- The date of the merge; what was not merged comes before every instant. -/
def mergeDate (pull : PullRequest) : WithBot Instant :=
  match pull.mergedAt with
  | some date => date
  | none => ⊥

theorem mergeDate_eq_iff {a b : PullRequest} :
    a.mergeDate = b.mergeDate ↔ a.mergedAt = b.mergedAt := by
  unfold mergeDate
  cases a.mergedAt with
  | none => cases b.mergedAt <;> simp
  | some x => cases b.mergedAt <;> simp

end PullRequest

namespace Selection

theorem isStale_eq (cutoff : Instant) (pull : PullRequest) :
    isStale cutoff pull = decide (pull.updatedAt < cutoff) :=
  Instant.before_eq _ _

/-- Was merged, and after the cutoff. -/
def Qualifies (cutoff : Instant) (pull : PullRequest) : Prop :=
  ∃ date, pull.mergedAt = some date ∧ cutoff < date

theorem isMergedAfter_iff {cutoff : Instant} {pull : PullRequest} :
    isMergedAfter cutoff pull = true ↔ Qualifies cutoff pull := by
  unfold isMergedAfter Qualifies
  cases pull.mergedAt with
  | none => simp
  | some date => simp

instance (cutoff : Instant) : DecidablePred (Qualifies cutoff) :=
  fun _ => decidable_of_iff _ isMergedAfter_iff

theorem isMergedAfter_eq (cutoff : Instant) (pull : PullRequest) :
    isMergedAfter cutoff pull = decide (Qualifies cutoff pull) := by
  rw [Bool.eq_iff_iff, decide_eq_true_iff, isMergedAfter_iff]

theorem mergedBefore_eq (a b : PullRequest) :
    mergedBefore a b = decide (a.mergeDate ≤ b.mergeDate) := by
  unfold mergedBefore PullRequest.mergeDate
  cases a.mergedAt with
  | none => simp
  | some x =>
    cases b.mergedAt with
    | none => simp
    | some y => simp

/-- `ys` has the pull requests of `xs` in the order of their merge; those merged at the same instant
keep their order. -/
structure Arranged (xs ys : List PullRequest) : Prop where
  perm : ys.Perm xs
  ascending : ys.Pairwise fun a b => a.mergeDate ≤ b.mergeDate
  ties : ∀ date, ys.filter (fun p => p.mergedAt = date) = xs.filter fun p => p.mergedAt = date

theorem arranged_sorted (xs : List PullRequest) : Arranged xs (sorted xs) := by
  have htrans : ∀ a b c : PullRequest, mergedBefore a b = true → mergedBefore b c = true →
      mergedBefore a c = true := by
    intro a b c
    simp only [mergedBefore_eq, decide_eq_true_eq]
    exact le_trans
  have htotal : ∀ a b : PullRequest, (mergedBefore a b || mergedBefore b a) = true := by
    intro a b
    simpa only [mergedBefore_eq, Bool.or_eq_true, decide_eq_true_eq] using le_total _ _
  refine ⟨List.mergeSort_perm xs _, ?_, fun date => ?_⟩
  · refine (List.pairwise_mergeSort htrans htotal xs).imp ?_
    intro a b
    simp only [mergedBefore_eq, decide_eq_true_eq]
    exact id
  · -- the pull requests of one date are in order already, so sorting keeps them as they are
    have hsub : List.Sublist (xs.filter fun p => p.mergedAt = date) (sorted xs) := by
      refine List.sublist_mergeSort htrans htotal ?_ List.filter_sublist
      refine List.pairwise_of_forall_mem_list fun a ha b hb => ?_
      have hab : a.mergeDate = b.mergeDate := PullRequest.mergeDate_eq_iff.2
        ((of_decide_eq_true (List.mem_filter.1 ha).2).trans
          (of_decide_eq_true (List.mem_filter.1 hb).2).symm)
      rw [mergedBefore_eq, decide_eq_true_eq, hab]
    have hsub' := hsub.filter fun p => decide (p.mergedAt = date)
    simp only [List.filter_filter, Bool.and_self] at hsub'
    exact (hsub'.eq_of_length ((List.mergeSort_perm xs _).filter _).length_eq.symm).symm

/-- Two ascending lists that agree on the pull requests of every date are the same. -/
theorem eq_of_ties_eq {ys zs : List PullRequest} (hperm : ys.Perm zs)
    (hy : ys.Pairwise fun a b => a.mergeDate ≤ b.mergeDate)
    (hz : zs.Pairwise fun a b => a.mergeDate ≤ b.mergeDate)
    (hties : ∀ date, ys.filter (fun p => p.mergedAt = date) =
      zs.filter fun p => p.mergedAt = date) : ys = zs := by
  induction ys generalizing zs with
  | nil => exact hperm.nil_eq
  | cons y ys ih =>
    cases zs with
    | nil => exact absurd hperm.symm.nil_eq (List.cons_ne_nil y ys).symm
    | cons z zs =>
      have head_le : ∀ {a b : PullRequest} {l : List PullRequest},
          (a :: l).Pairwise (fun a b => a.mergeDate ≤ b.mergeDate) → b ∈ a :: l →
          a.mergeDate ≤ b.mergeDate := by
        intro a b l h hb
        rcases List.mem_cons.1 hb with rfl | hb
        · exact le_rfl
        · exact List.rel_of_pairwise_cons h hb
      have hdate : z.mergedAt = y.mergedAt := PullRequest.mergeDate_eq_iff.1 <|
        le_antisymm (head_le hz (hperm.mem_iff.1 List.mem_cons_self))
          (head_le hy (hperm.mem_iff.2 List.mem_cons_self))
      -- both heads have the least date, and that date has one first pull request
      have hhead := hties y.mergedAt
      rw [List.filter_cons_of_pos (by simp), List.filter_cons_of_pos (by simp [hdate])] at hhead
      obtain ⟨rfl, -⟩ := List.cons.inj hhead
      refine congrArg _ (ih hperm.cons_inv hy.tail hz.tail fun date => ?_)
      have htail := hties date
      simp only [List.filter_cons] at htail
      split_ifs at htail with hd
      · exact (List.cons.inj htail).2
      · exact htail

/-- **There is only one arrangement.** -/
theorem Arranged.unique {xs ys zs : List PullRequest} (hy : Arranged xs ys)
    (hz : Arranged xs zs) : ys = zs :=
  eq_of_ties_eq (hy.perm.trans hz.perm.symm) hy.ascending hz.ascending
    fun date => (hy.ties date).trans (hz.ties date).symm

end Selection

end ReleaseDraft
