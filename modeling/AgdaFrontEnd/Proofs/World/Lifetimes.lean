import AgdaFrontEnd.World.Journal
import Mathlib.Data.List.Basic

/-!
# Which processes are left

The journal tells of a process when it starts, when it ends, and when its exit code is taken note of.
A process is left as long as its last event has not come; which of the two is the last one is up to
what is asked for.

* `Journal.alive`, `Journal.uncollected`: the processes that have not ended, and those whose exit codes
  nobody has taken note of.
* `Journal.IsLast`: the events that may count as the last one.
* `Journal.AtMost`: at no time are more processes left than so many.
-/

namespace AgdaFrontEnd

/-- The process that started. -/
def Event.start? : Event → Option Nat
  | .started p _ _ => some p
  | _ => none

/-- The process that ended. -/
def Event.exit? : Event → Option Nat
  | .exited p _ => some p
  | _ => none

/-- The process whose exit code was taken note of. -/
def Event.collection? : Event → Option Nat
  | .collected p => some p
  | _ => none

/-- The event neither starts nor ends a process. -/
def Event.IsIdle : Event → Prop
  | .started _ _ _ | .exited _ _ | .collected _ => False
  | _ => True

namespace Journal

/-- The processes started, by their numbers. -/
def started (j : Journal) : List Nat := j.filterMap Event.start?

/-- The processes that are left after one more event, where `last?` tells for which process it is the
last one. -/
def leftAfter (last? : Event → Option Nat) (ps : List Nat) (e : Event) : List Nat :=
  match e.start? with
  | some p => ps ++ [p]
  | none => (last? e).elim ps ps.erase

/-- The processes that are left after some events if those of `ps` were left before. -/
def leftFrom (last? : Event → Option Nat) (ps : List Nat) (j : Journal) : List Nat :=
  j.foldl (leftAfter last?) ps

/-- The processes that have not ended. -/
def alive (j : Journal) : List Nat := leftFrom Event.exit? [] j

/-- The processes whose exit codes nobody has taken note of. -/
def uncollected (j : Journal) : List Nat := leftFrom Event.collection? [] j

/-- Events that may count as the last one of a process. -/
structure IsLast (last? : Event → Option Nat) : Prop where
  none_of_isIdle : ∀ e, e.IsIdle → last? e = none
  ends : ∀ ps p code, leftFrom last? ps [.exited p code, .collected p] = ps.erase p

theorem isLast_exit? : IsLast Event.exit? where
  none_of_isIdle := fun e he => by cases e <;> first | rfl | cases he
  ends := fun _ _ _ => rfl

theorem isLast_collection? : IsLast Event.collection? where
  none_of_isIdle := fun e he => by cases e <;> first | rfl | cases he
  ends := fun _ _ _ => rfl

variable {last? : Event → Option Nat} {ps : List Nat} {j k : Journal} {n : Nat}

theorem leftFrom_append : leftFrom last? ps (j ++ k) = leftFrom last? (leftFrom last? ps j) k :=
  List.foldl_append

theorem leftFrom_cons {e : Event} :
    leftFrom last? ps (e :: j) = leftFrom last? (leftAfter last? ps e) j := rfl

theorem leftAfter_of_isIdle (h : IsLast last?) {e : Event} (he : e.IsIdle) :
    leftAfter last? ps e = ps := by
  have hstart : e.start? = none := by cases e <;> first | rfl | cases he
  rw [leftAfter, hstart, h.none_of_isIdle e he]
  rfl

theorem leftFrom_of_isIdle (h : IsLast last?) :
    ∀ {j : Journal} {ps : List Nat}, (∀ e ∈ j, e.IsIdle) → leftFrom last? ps j = ps
  | [], ps, _ => rfl
  | e :: j, ps, hj => by
    obtain ⟨he, hj⟩ := List.forall_mem_cons.1 hj
    rw [leftFrom_cons, leftAfter_of_isIdle h he, leftFrom_of_isIdle h hj]

/-! ## How many are left -/

theorem started_cons (e : Event) (j : Journal) : started (e :: j) = e.start?.toList ++ started j := by
  unfold started
  rw [List.filterMap_cons]
  cases e.start? <;> rfl

theorem length_leftAfter_le (last? : Event → Option Nat) (ps : List Nat) (e : Event) :
    (leftAfter last? ps e).length ≤ ps.length + e.start?.toList.length := by
  unfold leftAfter
  cases e.start? with
  | some p => exact Nat.le_of_eq List.length_append
  | none =>
    cases last? e with
    | none => exact Nat.le_refl _
    | some p => exact List.length_erase_le

theorem length_leftFrom_le (last? : Event → Option Nat) : ∀ (j : Journal) (ps : List Nat),
    (leftFrom last? ps j).length ≤ ps.length + (started j).length
  | [], _ => Nat.le_refl _
  | e :: j, ps => by
    have hfirst := length_leftAfter_le last? ps e
    have hrest := length_leftFrom_le last? j (leftAfter last? ps e)
    rw [leftFrom_cons, started_cons, List.length_append]
    omega

/-- At no time are more than `n` processes left. -/
def AtMost (last? : Event → Option Nat) (n : Nat) (ps : List Nat) (j : Journal) : Prop :=
  ∀ early, early <+: j → (leftFrom last? ps early).length ≤ n

theorem AtMost.append (hj : AtMost last? n ps j) (hk : AtMost last? n (leftFrom last? ps j) k) :
    AtMost last? n ps (j ++ k) := by
  rintro early ⟨late, hcut⟩
  rcases List.append_eq_append_iff.1 hcut with ⟨r, rfl, -⟩ | ⟨r, rfl, hr⟩
  · exact hj early (List.prefix_append early r)
  · rw [leftFrom_append]
    exact hk r ⟨late, hr.symm⟩

theorem AtMost.mono {m : Nat} (hj : AtMost last? n ps j) (h : n ≤ m) : AtMost last? m ps j :=
  fun early he => Nat.le_trans (hj early he) h

/-- No more processes are left than were left before or started since. -/
theorem atMost_of_started (h : ps.length + (started j).length ≤ n) : AtMost last? n ps j := by
  intro early he
  have hlength : (started early).length ≤ (started j).length :=
    (he.sublist.filterMap _).length_le
  have := length_leftFrom_le last? early ps
  omega

end Journal

end AgdaFrontEnd
