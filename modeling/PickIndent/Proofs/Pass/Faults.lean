import PickIndent.Proofs.Classification.Lines
import PickIndent.Proofs.Pass.Levels

/-!
# Faults — how a pass can fail

A line that is entered is at fault in one of three ways (`Nesting.visit_error`), and a pass over lines without
line feeds fails in no other way than at one of them (`formatLines_error`).
-/

namespace PickIndent

/-- What a line can be reported for: it lies below zero, or it is a `CASE` or an `END CASE` outside every
group. -/
def Fault.Reportable (fault : Fault) : Prop :=
  fault = .belowZero ∨ fault = .outsideCase .caseBranch ∨ fault = .outsideCase .endCase

namespace Nesting

theorem trackCase_error {c : Classification} {s : Nesting} {fault : Fault} (h : s.trackCase c = .error fault) :
    fault = .outsideCase .caseBranch ∨ fault = .outsideCase .endCase := by
  unfold trackCase at h
  split at h
  · exact absurd h (by simp)
  · exact absurd h (by simp)
  · exact Or.inl (Except.error.inj h).symm
  · exact absurd h (by simp)
  · exact Or.inr (Except.error.inj h).symm
  · exact absurd h (by simp)

theorem visit_error {c : Classification} {final : Bool} {s : Nesting} {fault : Fault}
    (h : s.visit c final = .error fault) :
    fault.Reportable := by
  unfold visit at h
  cases henter : s.enter c with
  | error e =>
    obtain rfl : e = fault := by simpa [henter] using h
    exact Or.inr (trackCase_error henter)
  | ok m =>
    simp only [henter] at h
    split at h
    · exact Or.inl (Except.error.inj h).symm
    · simp at h

end Nesting

variable {d : Dialect} {n : Nat} {s : Nesting}

/-- A pass that fails has met a line that is at fault. -/
theorem levelsFrom_error {lines : List Text} (hfeed : ∀ line ∈ lines, '\n' ∉ line) {e : PassError}
    (h : levelsFrom d n s lines = .error e) :
    ∃ i fault, i < lines.length ∧ e = .structural ⟨(n + i : Nat), fault⟩ ∧ fault.Reportable := by
  induction lines generalizing n s with
  | nil => simp [levelsFrom] at h
  | cons line later ih =>
    have of_later : ∀ {t : Nesting}, levelsFrom d (n + 1) t later = .error e →
        ∃ i fault, i < (line :: later).length ∧ e = .structural ⟨(n + i : Nat), fault⟩ ∧
          fault.Reportable := by
      intro t ht
      obtain ⟨i, fault, hi, rfl, hfault⟩ := ih (fun l hl => hfeed l (List.mem_cons_of_mem _ hl)) ht
      refine ⟨i + 1, fault, Nat.succ_lt_succ hi, ?_, hfault⟩
      rw [Nat.add_right_comm n 1 i, Nat.add_assoc]
    rcases levelsFrom_cons_error h with ⟨-, hlater⟩ | ⟨-, ⟨e', he', -⟩ | ⟨c, -, hvisit⟩⟩
    · exact of_later hlater
    · obtain ⟨c, hc⟩ := exists_classify d (hfeed line (by simp))
      rw [hc] at he'
      cases he'
    · rcases hvisit with ⟨fault, hv, rfl⟩ | ⟨level, s', -, hlater⟩
      · exact ⟨0, fault, Nat.succ_pos _, rfl, Nesting.visit_error hv⟩
      · exact of_later hlater

/-- **A program without line feeds in its lines is formatted or has a line that is at fault.** -/
theorem formatLines_error {o : Options} {lines : List Text} (hfeed : ∀ line ∈ lines, '\n' ∉ line)
    {e : PassError} (h : formatLines o lines = .error e) :
    ∃ i fault, i < lines.length ∧ e = .structural ⟨(i + 1 : Nat), fault⟩ ∧ fault.Reportable := by
  obtain ⟨i, fault, hi, rfl, hfault⟩ := levelsFrom_error hfeed (formatLines_eq_error_iff.mp h)
  exact ⟨i, fault, hi, by rw [Nat.add_comm], hfault⟩

end PickIndent
