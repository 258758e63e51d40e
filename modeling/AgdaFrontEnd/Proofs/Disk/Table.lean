import AgdaFrontEnd.Proofs.Disk.Change
import AgdaFrontEnd.Proofs.World.Run

/-!
# A file system is a table

Every place is entered once in a file system.  An entry that is put somewhere takes the place of the
one before it, so no process brings in a second one.

* `Disk.IsTable`: every place is entered once.
* `Disk.isTable_put`, `Disk.isTable_eraseAll`: single changes keep this.
* `Effect.keepsTable_performAll`: the changes of a process keep it.
-/

namespace AgdaFrontEnd

namespace Disk

/-- Every place is entered once. -/
def IsTable (d : Disk) : Prop := (d.entries.map (·.1)).Nodup

theorem isTable_eraseAll {d : Disk} (h : d.IsTable) (gone : Place → Bool) : (d.eraseAll gone).IsTable :=
  List.Nodup.sublist (List.filter_sublist.map _) h

theorem isTable_put {d : Disk} (h : d.IsTable) (p : Place) (e : Entry) : (d.put p e).IsTable := by
  refine List.nodup_cons.2 ⟨fun hp => ?_, List.Nodup.sublist (List.filter_sublist.map _) h⟩
  obtain ⟨x, hx, hxp⟩ := List.mem_map.1 hp
  have hne := (List.mem_filter.1 hx).2
  simp [hxp] at hne

/-- A link that is made is entered somewhere. -/
theorem makeLink_eq_ok {d d' : Disk} {p : Path} {target : Text} (h : d.makeLink p target = .ok d') :
    ∃ place, d.put place (.link target) = d' := by
  simp only [makeLink, bind, Except.bind, throw, throwThe, MonadExceptOf.throw] at h
  repeat' split at h
  all_goals first | exact ⟨_, Except.ok.inj h⟩ | cases h

end Disk

namespace Change

open Disk

theorem keepsTable_write (p : Path) (content : Bytes) :
    Keeps IsTable (once fun d => d.write p content) :=
  keeps_once fun d d' hd h => by
    obtain ⟨place, -, rfl⟩ := write_eq_ok.1 h
    exact isTable_put hd place _

theorem keepsTable_makeLink (p : Path) (target : Text) :
    Keeps IsTable (once fun d => d.makeLink p target) :=
  keeps_once fun d d' hd h => by
    obtain ⟨place, rfl⟩ := makeLink_eq_ok h
    exact isTable_put hd place _

theorem keepsTable_makeDirectories (existing : Bool) (p : Path) :
    Keeps IsTable (makeDirectories existing p) :=
  keeps_makeDirectories_of_put existing p fun _ place h _ => isTable_put h place _

theorem keepsTable_eraseAll (gone : Place → Bool) :
    Keeps IsTable (modify fun d => d.eraseAll gone) :=
  fun _ h => isTable_eraseAll h gone

theorem keepsTable_removeDirectory (p : Path) (place : Place) :
    Keeps IsTable (removeDirectory p place) := by
  refine (keepsTable_eraseAll fun q => place.isPrefixOf q && q ≠ place).bind fun _ =>
    (keeps_look _).bind fun place' => ?_
  dsimp only
  split
  · exact keeps_throw _
  · split
    · exact keeps_throw _
    · exact keepsTable_eraseAll place'.isPrefixOf

theorem keepsTable_remove (p : Path) : Keeps IsTable (remove p) := by
  refine (keeps_look _).bind fun place => Keeps.bind (a := get) (fun _ h => h) fun d => ?_
  split
  · exact keepsTable_removeDirectory p place
  · exact keepsTable_eraseAll place.isPrefixOf
  · exact keeps_throw _

end Change

/-! ## Processes -/

theorem Effect.keepsTable_perform (base : Path) (e : Effect) :
    Change.Keeps Disk.IsTable (e.perform base) := by
  cases e with
  | write path content =>
    exact (Change.keepsTable_makeDirectories true _).bind fun _ =>
      Change.keepsTable_write (base.join (Path.ofText path)) content
  | makeDirectory path => exact Change.keepsTable_makeDirectories true _
  | remove path => exact Change.keepsTable_remove _
  | link path target => exact Change.keepsTable_makeLink (base.join (Path.ofText path)) target

/-- **The changes of a process** keep the table. -/
theorem Effect.keepsTable_performAll (base : Path) : ∀ es : List Effect,
    Change.Keeps Disk.IsTable (performAll base es)
  | [] => Change.keeps_pure ()
  | e :: es => (e.keepsTable_perform base).bind fun _ => keepsTable_performAll base es

end AgdaFrontEnd
