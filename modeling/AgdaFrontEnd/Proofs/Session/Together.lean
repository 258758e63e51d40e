import AgdaFrontEnd.Proofs.Session.Line

/-!
# Commands given at once

In rounds in which the requests have their turns in order, the first round brings all of them into
line and the second one starts a process; every round after that ends the one at work and leaves the
next one at work.  So commands that are given at once come to what they come to one after another.

* `Line.Busy`: a process is at work, unless so many requests are over.
* `Line.Serves.runTurns_from`, `Line.Serves.runRounds_busy`: a round, and so any number of them, keep
  the line busy and end a request each.
* `Session.sendTogether_eq`: commands given at once are served one after another.
-/

namespace AgdaFrontEnd

namespace Line

/-! ## The order of arrival -/

theorem foldl_come_range' {n : Nat} : ∀ {k t : Nat}, t + k ≤ n →
    (List.range' t k).foldl (come n) (List.range t) = List.range (t + k)
  | 0, t, _ => rfl
  | k + 1, t, h => by
    have hcome : come n (List.range t) t = List.range (t + 1) := by
      rw [come, if_pos ⟨by omega, by simp⟩, List.range_succ]
    rw [List.range'_succ, List.foldl_cons, hcome, foldl_come_range' (by omega)]
    congr 1
    omega

/-- In a round every request comes. -/
theorem foldl_come_range (n : Nat) : (List.range n).foldl (come n) [] = List.range n := by
  have h := foldl_come_range' (Nat.le_of_eq (Nat.zero_add n))
  rwa [Nat.zero_add, ← List.range_eq_range'] at h

section Order

variable {n t : Nat} {done rest : List Nat} (h : done ++ rest = List.range n)

include h

theorem length_add_length : done.length + rest.length = n := by
  rw [← List.length_append, h, List.length_range]

theorem mem_done_iff : t ∈ done ↔ t < done.length := by
  have hdone : done = List.range done.length := by
    have htake : done = (List.range n).take done.length := by
      rw [← h]
      simp
    rw [htake, List.take_range]
    simp
  conv_lhs => rw [hdone]
  exact List.mem_range

/-- The first of the rest comes right after those that are over. -/
theorem exists_rest (hlt : done.length < n) : ∃ js, rest = done.length :: js := by
  have hrest : rest = (List.range n).drop done.length := by
    rw [← h]
    simp
  rw [List.drop_eq_getElem_cons (by simpa using hlt), List.getElem_range] at hrest
  exact ⟨_, hrest⟩

end Order

/-! ## Rounds -/

/-- A process is at work for the first of the rest, unless the first `t` requests are over. -/
def Busy (l : Line) (done rest : List Nat) (t : Nat) : Prop :=
  t ≤ done.length ∨ ∃ i ∈ rest.head?, l.Works i

section Rounds

variable {cs : List Text} {s₀ : Session} {w₀ : World} {changes : List (Script × Disk)}

/-- In the turns of the requests from the `t`-th on, the one that is at work ends, and the next one is
at work after them. -/
theorem Serves.runTurns_from : ∀ (k t : Nat) {l : Line} {vs : List Service} {rest : List Nat}
    {s : Session} {w : World}, t + k = cs.length → requestsOf vs ++ rest = List.range cs.length →
    Serves cs s₀ w₀ l vs changes rest s w → l.Busy (requestsOf vs) rest t →
      ∃ l' s' w' vs' rest', l.runTurns (List.range' t k) s w = ((l', s'), w') ∧
        requestsOf vs' ++ rest' = List.range cs.length ∧
        Serves cs s₀ w₀ l' vs' changes rest' s' w' ∧
        l'.Busy (requestsOf vs') rest' cs.length ∧
        (requestsOf vs).length ≤ (requestsOf vs').length ∧
        (t ≤ (requestsOf vs).length → (∃ i ∈ rest.head?, l.Works i) →
          (requestsOf vs).length < (requestsOf vs').length)
  | 0, t, l, vs, rest, s, w, hk, horder, h, hbusy => by
    rw [Nat.add_zero] at hk
    subst hk
    refine ⟨l, s, w, vs, rest, rfl, horder, h, hbusy, Nat.le_refl _, ?_⟩
    rintro hle ⟨i, hi, -⟩
    have hlength := length_add_length horder
    cases rest with
    | nil => cases hi
    | cons j js =>
      rw [List.length_cons] at hlength
      omega
  | k + 1, t, l, vs, rest, s, w, hk, horder, h, hbusy => by
    have hn : t < cs.length := by omega
    have hk' : t + 1 + k = cs.length := by omega
    rw [List.range'_succ]
    rcases Nat.lt_trichotomy t (requestsOf vs).length with hlt | heq | hgt
    · -- The request is over.
      obtain ⟨r, hr⟩ := h.stands.phase?_of_mem_done ((mem_done_iff horder).2 hlt)
      rw [runTurns_cons (turn_ended (h.stands.request hr))]
      obtain ⟨l', s', w', vs', rest', hturns, horder', h', hbusy', hle, hend⟩ :=
        Serves.runTurns_from k (t + 1) hk' horder h (.inl hlt)
      exact ⟨l', s', w', vs', rest', hturns, horder', h', hbusy', hle, fun _ => hend hlt⟩
    · -- The request is the first of the rest.
      obtain ⟨js, rfl⟩ := exists_rest horder (heq ▸ hn)
      rw [← heq] at horder h
      obtain ⟨l₁, s₁, w₁, vs₁, rest₁, hturn, hfirst, h₁, -⟩ := h.turn_first
      rw [runTurns_cons hturn]
      rcases hfirst with ⟨hvs, rfl⟩ | ⟨rfl, rfl, hadmitted, hworks⟩
      · have hlength : (requestsOf vs₁).length = t + 1 := by rw [hvs, heq, List.length_append]; rfl
        rw [List.append_cons, ← hvs] at horder
        obtain ⟨l', s', w', vs', rest', hturns, horder', h', hbusy', hle, -⟩ :=
          Serves.runTurns_from k (t + 1) hk' horder h₁ (.inl (Nat.le_of_eq hlength.symm))
        exact ⟨l', s', w', vs', rest', hturns, horder', h', hbusy', by omega, fun _ _ => by omega⟩
      · obtain ⟨l', s', w', vs', rest', hturns, horder', h', hbusy', hle, -⟩ :=
          Serves.runTurns_from k (t + 1) hk' horder h₁ (.inr ⟨t, rfl, hworks⟩)
        refine ⟨l', s', w', vs', rest', hturns, horder', h', hbusy', hle, ?_⟩
        rintro - ⟨i, hi, p, hp⟩
        rw [← heq] at hi
        cases hi
        rw [hadmitted] at hp
        cases hp
    · -- The request waits for the one that is at work.
      obtain ⟨js, rfl⟩ := exists_rest horder (by omega)
      have hworks : ∃ i ∈ ((requestsOf vs).length :: js).head?, l.Works i :=
        hbusy.resolve_left (by omega)
      have hjs : t ∈ js := by
        have hmem : t ∈ requestsOf vs ++ (requestsOf vs).length :: js := by
          rw [horder, List.mem_range]
          exact hn
        rcases List.mem_append.1 hmem with hdone | hrest
        · rw [mem_done_iff horder] at hdone
          omega
        · rcases List.mem_cons.1 hrest with rfl | hjs
          · omega
          · exact hjs
      rw [runTurns_cons (turn_waiting (h.stands.request (h.stands.waiting t hjs)))]
      obtain ⟨l', s', w', vs', rest', hturns, horder', h', hbusy', hle, -⟩ :=
        Serves.runTurns_from k (t + 1) hk' horder h (.inr hworks)
      exact ⟨l', s', w', vs', rest', hturns, horder', h', hbusy', hle, fun _ => by omega⟩

/-- Every round of a busy line ends a request, until all are over. -/
theorem Serves.runRounds_busy : ∀ (m : Nat) {l : Line} {vs : List Service} {rest : List Nat}
    {s : Session} {w : World}, requestsOf vs ++ rest = List.range cs.length →
    Serves cs s₀ w₀ l vs changes rest s w → l.Busy (requestsOf vs) rest cs.length →
      ∃ l' s' w' vs' rest',
        l.runTurns (List.replicate m (List.range cs.length)).flatten s w = ((l', s'), w') ∧
        requestsOf vs' ++ rest' = List.range cs.length ∧
        Serves cs s₀ w₀ l' vs' changes rest' s' w' ∧
        (cs.length ≤ (requestsOf vs').length ∨ (requestsOf vs).length + m ≤ (requestsOf vs').length)
  | 0, l, vs, rest, s, w, horder, h, hbusy => ⟨l, s, w, vs, rest, rfl, horder, h, .inr (Nat.le_refl _)⟩
  | m + 1, l, vs, rest, s, w, horder, h, hbusy => by
    obtain ⟨l₁, s₁, w₁, vs₁, rest₁, hround, horder₁, h₁, hbusy₁, hle, hend⟩ :=
      h.runTurns_from cs.length 0 (Nat.zero_add _) horder (.inl (Nat.zero_le _))
    obtain ⟨l₂, s₂, w₂, vs₂, rest₂, hrounds, horder₂, h₂, hlength⟩ :=
      Serves.runRounds_busy m horder₁ h₁ hbusy₁
    rw [List.replicate_succ, List.flatten_cons]
    rw [← List.range_eq_range'] at hround
    refine ⟨l₂, s₂, w₂, vs₂, rest₂, (runTurns_append _ hround _).trans hrounds, horder₂, h₂, ?_⟩
    rcases hbusy with hall | hworks
    · omega
    · have hone := hend (Nat.zero_le _) hworks
      omega

end Rounds

/-! ## Outcomes -/

theorem map_phase?_range (l : Line) :
    (List.range l.requests.length).map l.phase? = l.requests.map fun r => some r.phase := by
  refine List.ext_getElem (by simp) fun i h _ => ?_
  rw [List.length_map, List.length_range] at h
  simp [phase?, List.getElem?_eq_getElem h]

/-- The outcomes of requests that are over. -/
theorem outcomes_of_ended {l : Line} {rs : List (Except Failure Text)}
    (h : (List.range l.requests.length).map l.phase? = rs.map fun r => some (.ended r)) :
    l.outcomes = rs.map some := by
  have hphases : l.requests.map (·.phase) = rs.map .ended := by
    refine List.map_injective_iff.2 (fun _ _ => Option.some.inj) ?_
    rw [map_phase?_range] at h
    rw [List.map_map, List.map_map]
    exact h
  refine List.ext_getElem? fun i => ?_
  have hi := congrArg (·[i]?) hphases
  simp only [List.getElem?_map] at hi
  rw [outcomes, List.getElem?_map, List.getElem?_map]
  cases hr : rs[i]? with
  | none =>
    rw [hr, Option.map_none, Option.map_eq_none_iff] at hi
    rw [hi]
    rfl
  | some r =>
    rw [hr, Option.map_some, Option.map_eq_some_iff] at hi
    obtain ⟨q, hq, hphase⟩ := hi
    rw [hq, Option.map_some, hphase]
    rfl

theorem map_commandOf_range (cs : List Text) : (List.range cs.length).map (commandOf cs) = cs := by
  refine List.ext_getElem (by simp) fun i h _ => ?_
  rw [List.length_map, List.length_range] at h
  simp [commandOf, h]

end Line

open Line in
/-- **Commands given at once are served one after another**: they have the outcomes, and leave the
session and the world, that they have if they are given one after another. -/
theorem Session.sendTogether_eq (cs : List Text) (s : Session) (w : World) :
    sendTogether cs s w = (((sendAll cs s w).1.1.map some, (sendAll cs s w).1.2), (sendAll cs s w).2) := by
  obtain ⟨l₁, s₁, w₁, vs₁, rest₁, hround₁, hcome₁, h₁, -⟩ :=
    (serves_ofCommands cs s w).runTurns (List.range cs.length)
  have hcome : requestsOf vs₁ ++ rest₁ = List.range cs.length :=
    hcome₁.trans (foldl_come_range cs.length)
  obtain ⟨l₂, s₂, w₂, vs₂, rest₂, hround₂, horder₂, h₂, hbusy, -⟩ :=
    h₁.runTurns_from cs.length 0 (Nat.zero_add _) hcome (.inl (Nat.zero_le _))
  rw [← List.range_eq_range'] at hround₂
  obtain ⟨l, s', w', vs, rest, hrounds, horder, h, hlength⟩ := h₂.runRounds_busy cs.length horder₂ hbusy
  have hturns : (ofCommands cs).runTurns (rounds cs.length) s w = ((l, s'), w') := by
    rw [rounds, List.replicate_succ, List.replicate_succ, List.flatten_cons, List.flatten_cons]
    exact (runTurns_append _ hround₁ _).trans ((runTurns_append _ hround₂ _).trans hrounds)
  have hsum := length_add_length horder
  obtain rfl : rest = [] := List.length_eq_zero_iff.1 (by omega)
  rw [List.append_nil] at horder
  have hended := h.stands.ended
  rw [horder, ← h.stands.length_requests] at hended
  cases h.attends with
  | @free after hc =>
    obtain ⟨hchanges, rfl⟩ := List.append_eq_nil_iff.1 hc.symm
    have hserved : serveAll cs vs s w = sendAll cs s w := by
      rw [serveAll_eq_sendAll hchanges, horder, map_commandOf_range]
    rw [hserved] at hturns hended
    rw [← outcomes_of_ended hended]
    exact bind_apply₂ hturns _

end AgdaFrontEnd
