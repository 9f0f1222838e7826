import EntryForm.Proofs.Repetition

/-!
# Calls of the controls of a repeated field

The two controls of a repeated field work on its count in place: they store the new count first and
look then whether another instance can be added. They do what `RepeatState.add?` and
`RepeatState.remove?` do, whatever the bounds are, also if they contradict each other. After any row
of calls the count tells how many of them have succeeded, and another instance is offered exactly
while there is room for it.
-/

namespace EntryForm

/-- A call of one of the controls of a repeated field. -/
inductive RepeatCall
  | add
  | remove
  deriving DecidableEq, Repr

namespace RepeatState

/-- Counts one more instance in place, and tells whether it has. -/
def addInPlace : StateM RepeatState Bool := do
  let r ← get
  if !r.addEnabled then pure false
  else
    set { r with count := Nat.min (r.count + 1) countLimit }
    modify fun r => if r.max = some r.count then { r with addEnabled := false } else r
    pure true

/-- Counts one instance less in place, and tells whether it has. -/
def removeInPlace : StateM RepeatState Bool := do
  let r ← get
  if r.count ≤ 1 then pure false
  else
    set { r with count := r.count - 1 }
    modify fun r => if r.max.all (r.count ≤ ·) then { r with addEnabled := true } else r
    pure true

/-- Adding in place leaves one instance more if there is room, else the same. -/
theorem run_addInPlace (r : RepeatState) :
    addInPlace.run r = (r.add?.isSome, r.add?.getD r) := by
  have hrun : addInPlace.run r =
      if !r.addEnabled then (false, r)
      else
        let stored := { r with count := Nat.min (r.count + 1) countLimit }
        (true, if stored.max = some stored.count then { stored with addEnabled := false }
          else stored) := by
    change StateT.run (if _ then _ else _) r = _
    split <;> rfl
  rw [hrun, add?]
  cases henabled : r.addEnabled with
  | false => rfl
  | true =>
      by_cases hmax : r.max = some (Nat.min (r.count + 1) countLimit)
      · simp [hmax]
      · have hroom : (r.max != some (Nat.min (r.count + 1) countLimit)) = true :=
          bne_iff_ne.mpr hmax
        simp [hmax, hroom]

theorem run_removeInPlace (r : RepeatState) :
    removeInPlace.run r = (r.remove?.isSome, r.remove?.getD r) := by
  have hrun : removeInPlace.run r =
      if r.count ≤ 1 then (false, r)
      else
        let stored := { r with count := r.count - 1 }
        (true, if stored.max.all (stored.count ≤ ·) then { stored with addEnabled := true }
          else stored) := by
    change StateT.run (if _ then _ else _) r = _
    split <;> rfl
  rw [hrun, remove?]
  split
  · rfl
  · cases hroom : r.max.all (r.count - 1 ≤ ·) with
    | false => simp only [hroom, Bool.or_false]; rfl
    | true => simp only [hroom, Bool.or_true]; rfl

end RepeatState

namespace RepeatCall

/-- What a call does in place. -/
def inPlace : RepeatCall → StateM RepeatState Bool
  | .add => RepeatState.addInPlace
  | .remove => RepeatState.removeInPlace

/-- The state after a call that succeeds. -/
def next? : RepeatCall → RepeatState → Option RepeatState
  | .add => RepeatState.add?
  | .remove => RepeatState.remove?

/-- A call succeeds if there is a next state, which it leaves. -/
theorem run_inPlace (call : RepeatCall) (r : RepeatState) :
    call.inPlace.run r = ((call.next? r).isSome, (call.next? r).getD r) := by
  cases call with
  | add => exact RepeatState.run_addInPlace r
  | remove => exact RepeatState.run_removeInPlace r

/-- A row of calls in place, each with its answer. -/
def replay : List RepeatCall → StateM RepeatState (List (RepeatCall × Bool))
  | [] => pure []
  | call :: rest => do
    let answer ← call.inPlace
    pure ((call, answer) :: (← replay rest))

/-- A row of calls is replayed one call after the other. -/
theorem run_replay_cons (call : RepeatCall) (rest : List RepeatCall) (r : RepeatState) :
    (replay (call :: rest)).run r =
      ((call, (call.next? r).isSome) :: ((replay rest).run ((call.next? r).getD r)).1,
        ((replay rest).run ((call.next? r).getD r)).2) := by
  rw [replay, StateT.run_bind, run_inPlace]
  rfl

/-- Every call is answered. -/
theorem replay_calls (calls : List RepeatCall) (r : RepeatState) :
    ((replay calls).run r).1.map Prod.fst = calls := by
  induction calls generalizing r with
  | nil => rfl
  | cons call rest ih => rw [run_replay_cons, List.map_cons, ih]

/-- A call that is refused changes nothing. -/
theorem refused (call : RepeatCall) (r : RepeatState) (h : (call.inPlace.run r).1 = false) :
    (call.inPlace.run r).2 = r := by
  rw [run_inPlace] at h ⊢
  rw [Option.isSome_eq_false_iff, Option.isNone_iff_eq_none] at h
  rw [h, Option.getD_none]

end RepeatCall

namespace RepeatState
variable {min max : Option Nat} {added removed : Nat} {r r' : RepeatState}

/-- What holds of a repeated field with some bounds after so many additions and removals. -/
structure Follows (min max : Option Nat) (added removed : Nat) (r : RepeatState) : Prop where
  bounds : r.min = min ∧ r.max = max
  count : r.count + removed = 1 + added
  pos : 1 ≤ r.count
  addEnabled : r.addEnabled = true ↔ ∀ m ∈ max, r.count < m
  le_max : ∀ m ∈ max, m ≠ 0 → r.count ≤ m

theorem follows_start (min max : Option Nat) : Follows min max 0 0 (start min max) where
  bounds := ⟨rfl, rfl⟩
  count := rfl
  pos := Nat.le_refl 1
  addEnabled := by cases max <;> simp [start]
  le_max := by
    intro m _ hm
    exact Nat.one_le_iff_ne_zero.mpr hm

/-- An addition needs room, and may use it up. -/
theorem Follows.add (h : Follows min max added removed r) (hlimit : r.count < countLimit)
    (hadd : r.add? = some r') : Follows min max (added + 1) removed r' := by
  obtain ⟨⟨hmin, hmax⟩, hcount, hpos, henabled, _⟩ := h
  have hadds : r.addEnabled = true := by
    rw [add?] at hadd
    split at hadd
    · assumption
    · cases hadd
  have hroom := henabled.mp hadds
  rw [add?_eq hadds hlimit, Option.some.injEq] at hadd
  subst hadd
  have hcount : r.count + 1 + removed = 1 + (added + 1) := by omega
  have hagain : (r.max != some (r.count + 1)) = true ↔ ∀ m ∈ max, r.count + 1 < m := by
    rw [hmax]
    cases max with
    | none => simp
    | some m =>
        have hlt := hroom m rfl
        simp only [bne_iff_ne, ne_eq, Option.some.injEq, Option.mem_def, forall_eq']
        omega
  exact ⟨⟨hmin, hmax⟩, hcount, Nat.le_add_left 1 _, hagain, fun m hm _ => hroom m hm⟩

/-- A removal makes room, unless there is none for the first instance. -/
theorem Follows.remove (h : Follows min max added removed r) (hremove : r.remove? = some r') :
    Follows min max added (removed + 1) r' := by
  obtain ⟨⟨hmin, hmax⟩, hcount, hpos, henabled, hle⟩ := h
  have hmany : 1 < r.count := by
    rw [remove?] at hremove
    split at hremove
    · cases hremove
    · omega
  rw [remove?_eq hmany, Option.some.injEq] at hremove
  subst hremove
  have hcount : r.count - 1 + (removed + 1) = 1 + added := by omega
  have hagain : (r.addEnabled || r.max.all (r.count - 1 ≤ ·)) = true ↔
      ∀ m ∈ max, r.count - 1 < m := by
    rw [hmax, Bool.or_eq_true, henabled]
    cases max with
    | none => simp
    | some m =>
        have hle := hle m rfl
        simp only [Option.mem_def, Option.some.injEq, forall_eq', Option.all_some,
          decide_eq_true_eq]
        omega
  refine ⟨⟨hmin, hmax⟩, hcount, Nat.le_sub_one_of_lt hmany, hagain, ?_⟩
  intro m hm hne
  exact Nat.le_trans (Nat.sub_le _ _) (hle m hm hne)

/-- Every call keeps what holds of the counts, with one more addition or removal if it succeeds. -/
theorem Follows.call (h : Follows min max added removed r) (hlimit : r.count < countLimit)
    (call : RepeatCall) :
    Follows min max (added + [(call, (call.next? r).isSome)].count (.add, true))
      (removed + [(call, (call.next? r).isSome)].count (.remove, true))
      ((call.next? r).getD r) := by
  cases hnext : call.next? r with
  | none => cases call <;> exact h
  | some r' =>
      cases call with
      | add => exact h.add hlimit hnext
      | remove => exact h.remove hnext

/-- A row of calls keeps what holds of the counts, as long as they cannot reach the limit. A call
adds at most one instance, so the rest of the row cannot reach it either. -/
theorem Follows.replay (calls : List RepeatCall) (h : Follows min max added removed r)
    (hlimit : r.count + calls.length ≤ countLimit) :
    let (answers, r') := (RepeatCall.replay calls).run r
    Follows min max (added + answers.count (.add, true))
      (removed + answers.count (.remove, true)) r' := by
  induction calls generalizing added removed r with
  | nil => exact h
  | cons call rest ih =>
      rw [List.length_cons] at hlimit
      have hcall := h.call (by omega) call
      have hgrows := List.count_le_length (a := (RepeatCall.add, true))
        (l := [(call, (call.next? r).isSome)])
      rw [List.length_singleton] at hgrows
      have hbefore := h.count
      have hafter := hcall.count
      have hrest := ih hcall (by omega)
      rw [RepeatCall.run_replay_cons]
      simp only [Nat.add_assoc, ← List.count_append, List.singleton_append] at hrest
      exact hrest

/-- After any row of calls on a repeated field, fewer than can be counted, the count is told by the
calls that have succeeded. At least the first instance is left, and only a bound of none is
exceeded. Another instance is offered exactly while there is room, the bounds are as they were, and
a call that is refused changes nothing. -/
theorem count_follows_calls {calls : List RepeatCall} {answers : List (RepeatCall × Bool)}
    (hcalls : calls.length < countLimit)
    (h : (RepeatCall.replay calls).run (start min max) = (answers, r)) :
    answers.map Prod.fst = calls ∧
      r.count + answers.count (.remove, true) = 1 + answers.count (.add, true) ∧
      1 ≤ r.count ∧
      (r.addEnabled = true ↔ ∀ m, max = some m → r.count < m) ∧
      (∀ m, max = some m → m < r.count → m = 0) ∧
      r.min = min ∧ r.max = max ∧
      ∀ call : RepeatCall, (call.inPlace.run r).1 = false → (call.inPlace.run r).2 = r := by
  have hanswers := RepeatCall.replay_calls calls (start min max)
  have hlimit : 1 + calls.length ≤ countLimit := by omega
  have hfollows := (follows_start min max).replay calls hlimit
  rw [h] at hanswers hfollows
  obtain ⟨⟨hmin, hmax⟩, hcount, hpos, henabled, hle⟩ := hfollows
  rw [Nat.zero_add, Nat.zero_add] at hcount
  refine ⟨hanswers, hcount, hpos, henabled, ?_, hmin, hmax, fun call => call.refused r⟩
  intro m hm hexceeded
  by_contra hne
  exact absurd (hle m hm hne) (Nat.not_le.mpr hexceeded)

/-- Bounds that contradict each other leave the upper one in force. -/
theorem second_instance_is_the_last :
    let calls := [RepeatCall.add, .add, .remove, .remove]
    let answers := [(RepeatCall.add, true), (.add, false), (.remove, true), (.remove, false)]
    let r : RepeatState := ⟨1, some 3, some 2, true⟩
    calls.length < countLimit ∧
      (RepeatCall.replay calls).run (start (some 3) (some 2)) = (answers, r) ∧
      r.count + answers.count (.remove, true) = 1 + answers.count (.add, true) ∧
      (r.addEnabled = true ↔ ∀ m, some 2 = some m → r.count < m) ∧
      ∀ call : RepeatCall, (call.inPlace.run r).1 = false → (call.inPlace.run r).2 = r := by
  intro calls answers r
  have hcalls : calls.length < countLimit := by decide
  have hrun : (RepeatCall.replay calls).run (start (some 3) (some 2)) = (answers, r) := rfl
  obtain ⟨_, hcount, _, henabled, _, _, _, hrefused⟩ := count_follows_calls hcalls hrun
  exact ⟨hcalls, hrun, hcount, henabled, hrefused⟩

end RepeatState

end EntryForm
