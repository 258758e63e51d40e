import AgdaFrontEnd.Session.Line
import AgdaFrontEnd.Proofs.Session.Reply

/-!
# Commands one after another, while programs and files change

Others may change programs and files whenever a session waits: before a process starts, and between
its start and the exchange with it.

* `World.changed`: programs and files become others.
* `Session.sendAmid`: a command, with changes while its process is at work.
* `Line.Service`, `Line.serveAll`: requests that are served one after another, with the changes
  in between.
* `Line.serveAll_eq_sendAll`: without changes the commands are just given one after another.
* `Line.serveAll_counts`: each command is counted, and none leaves a process at work.
-/

namespace AgdaFrontEnd

/-- Programs and files become others, one change after another. -/
def World.changed (w : World) (changes : List (Script × Disk)) : World :=
  changes.foldl (fun w change => { w with script := change.1, disk := change.2 }) w

theorem World.changed_append (w : World) (changes more : List (Script × Disk)) :
    w.changed (changes ++ more) = (w.changed changes).changed more := List.foldl_append

namespace Session

/-- Gives the prover a command; between the start of its process and the exchange with it, or after
the attempt to start one, there are changes. -/
def sendAmid (changes : List (Script × Disk)) (command : Text) :
    StateT Session (StateM World) (Except Failure Text) := fun s w =>
  match (launch command).run s w with
  | ((.error f, s'), w') => ((.error f, s'), w'.changed changes)
  | ((.ok process, s'), w') => (converse process command).run s' (w'.changed changes)

section Send

variable {c : Text} {f : Failure} {p : Nat} {r : Except Failure Text} {s s' : Session} {w w' : World}
  {changes : List (Script × Disk)}

theorem sendAmid_of_launch_error (h : (launch c).run s w = ((.error f, s'), w')) :
    sendAmid changes c s w = ((.error f, s'), w'.changed changes) := by
  rw [sendAmid, h]

theorem sendAmid_of_launch_ok (h : (launch c).run s w = ((.ok p, s'), w')) :
    sendAmid changes c s w = (converse p c).run s' (w'.changed changes) := by
  rw [sendAmid, h]

/-- Without changes it is just the command. -/
theorem sendAmid_nil (c : Text) (s : Session) (w : World) : sendAmid [] c s w = (send c).run s w := by
  rcases hl : (launch c).run s w with ⟨⟨f | p, s₁⟩, w₁⟩
  · exact (sendAmid_of_launch_error hl).trans (Talk.run_bind_error hl _).symm
  · have hsend : (send c).run s w = (converse p c).run s₁ w₁ := Talk.run_bind_ok hl _
    exact (sendAmid_of_launch_ok hl).trans hsend.symm

/-- A command is counted, and leaves no process at work if it finds none. -/
theorem sendAmid_counts (h : sendAmid changes c s w = ((r, s'), w')) :
    s'.sent = s.sent + 1 ∧ (s.process = none → s'.process = none) := by
  have hlaunch := run_launch_eq c s w
  cases hf : w.script.startFault? s.program c with
  | some fault =>
    rw [hf] at hlaunch
    rw [sendAmid_of_launch_error hlaunch] at h
    cases h
    exact ⟨rfl, id⟩
  | none =>
    rw [hf] at hlaunch
    rw [sendAmid_of_launch_ok hlaunch, run_converse] at h
    cases h
    exact ⟨rfl, fun _ => rfl⟩

/-- A command that finds no process at work leaves none. -/
theorem process_send (hs : s.process = none) (h : (send c).run s w = ((r, s'), w')) :
    s'.process = none := by
  rw [← sendAmid_nil] at h
  exact (sendAmid_counts h).2 hs

end Send

end Session

namespace Line

/-- A request that is served, with the changes since the one before it was over: those until its
process starts, and those while it is at work. -/
structure Service where
  before : List (Script × Disk)
  request : Nat
  amid : List (Script × Disk)

/-- The requests that are served. -/
def requestsOf (vs : List Service) : List Nat := vs.map (·.request)

/-- The changes until the requests that are served are over. -/
def changesOf (vs : List Service) : List (Script × Disk) := vs.flatMap fun v => v.before ++ v.amid

theorem requestsOf_append (vs vs' : List Service) :
    requestsOf (vs ++ vs') = requestsOf vs ++ requestsOf vs' := List.map_append

theorem changesOf_append (vs vs' : List Service) :
    changesOf (vs ++ vs') = changesOf vs ++ changesOf vs' := List.flatMap_append

variable (cs : List Text)

/-- The command of a request. -/
def commandOf (i : Nat) : Text := cs.getD i []

/-- Serves a request. -/
def serve (v : Service) : StateT Session (StateM World) (Except Failure Text) := fun s w =>
  Session.sendAmid v.amid (commandOf cs v.request) s (w.changed v.before)

/-- Serves requests one after another, each whatever became of those before it. -/
def serveAll : List Service → StateT Session (StateM World) (List (Except Failure Text))
  | [] => return []
  | v :: vs => do
    let r ← serve cs v
    let rs ← serveAll vs
    return r :: rs

variable {cs}

theorem serveAll_concat {v : Service} {r : Except Failure Text} {s₁ s₂ : Session} {w₁ w₂ : World}
    (hv : serve cs v s₁ w₁ = ((r, s₂), w₂)) :
    ∀ {vs : List Service} {rs : List (Except Failure Text)} {s : Session} {w : World},
      serveAll cs vs s w = ((rs, s₁), w₁) → serveAll cs (vs ++ [v]) s w = ((rs ++ [r], s₂), w₂)
  | [], rs, s, w, h => by
    cases h
    exact (bind_apply₂ hv _).trans rfl
  | v' :: vs, rs, s, w, h => by
    rcases hv' : serve cs v' s w with ⟨⟨r', s'⟩, w'⟩
    rcases hvs : serveAll cs vs s' w' with ⟨⟨rs', s''⟩, w''⟩
    have hrest : serveAll cs (v' :: vs) s w = ((r' :: rs', s''), w'') :=
      (bind_apply₂ hv' _).trans (bind_apply₂ hvs _)
    rw [hrest] at h
    cases h
    exact (bind_apply₂ hv' _).trans (bind_apply₂ (serveAll_concat hv hvs) _)

/-- Without changes the commands are just given one after another. -/
theorem serveAll_eq_sendAll : ∀ {vs : List Service}, changesOf vs = [] → ∀ (s : Session) (w : World),
    serveAll cs vs s w = Session.sendAll ((requestsOf vs).map (commandOf cs)) s w
  | [], _, _, _ => rfl
  | ⟨before, i, amid⟩ :: vs, h, s, w => by
    obtain ⟨hv, hvs⟩ := List.append_eq_nil_iff.1 h
    obtain ⟨rfl, rfl⟩ := List.append_eq_nil_iff.1 hv
    rcases hc : (Session.send (commandOf cs i)).run s w with ⟨⟨r, s₁⟩, w₁⟩
    rcases hcs : serveAll cs vs s₁ w₁ with ⟨⟨rs, s₂⟩, w₂⟩
    have hserve : serve cs ⟨[], i, []⟩ s w = ((r, s₁), w₁) := (Session.sendAmid_nil ..).trans hc
    have hrest : Session.sendAll ((requestsOf vs).map (commandOf cs)) s₁ w₁ = ((rs, s₂), w₂) :=
      (serveAll_eq_sendAll hvs s₁ w₁).symm.trans hcs
    exact ((bind_apply₂ hserve _).trans (bind_apply₂ hcs _)).trans
      ((bind_apply₂ hc _).trans (bind_apply₂ hrest _)).symm

/-- Requests that find no process at work leave none, and the command of each is counted. -/
theorem serveAll_counts : ∀ {vs : List Service} {rs : List (Except Failure Text)} {s s' : Session}
    {w w' : World}, serveAll cs vs s w = ((rs, s'), w') →
      s'.sent = s.sent + vs.length ∧ (s.process = none → s'.process = none)
  | [], rs, s, s', w, w', h => by
    cases h
    exact ⟨rfl, id⟩
  | v :: vs, rs, s, s', w, w', h => by
    rcases hv : serve cs v s w with ⟨⟨r, s₁⟩, w₁⟩
    rcases hvs : serveAll cs vs s₁ w₁ with ⟨⟨rs', s₂⟩, w₂⟩
    have hrest : serveAll cs (v :: vs) s w = ((r :: rs', s₂), w₂) :=
      (bind_apply₂ hv _).trans (bind_apply₂ hvs _)
    rw [hrest] at h
    cases h
    obtain ⟨hone, hfree⟩ := Session.sendAmid_counts hv
    obtain ⟨hsent, hprocess⟩ := serveAll_counts hvs
    refine ⟨?_, fun hs => hprocess (hfree hs)⟩
    rw [hsent, hone, List.length_cons, Nat.add_assoc, Nat.add_comm 1]

end Line

end AgdaFrontEnd
