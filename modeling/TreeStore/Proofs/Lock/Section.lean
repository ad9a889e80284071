import TreeStore.Lock.Monitor
import Mathlib.Data.Set.Card
import Mathlib.Tactic.SplitIfs

/-!
# Sections of the lock

What one section of an acquisition or a release can do is said once: `Change` has a constructor for
each way a section can go, and `change_step` says that every section goes one of them.  A side has
its holders, as a number: a grant adds one and a release takes one away, whichever side it is.
-/

namespace TreeStore.Lock

variable {l : Lock} {side other : Side}

/-! ### Holders of a side -/

/-- The number of those who hold a side. -/
def holders (l : Lock) : Side → Nat
  | .read => l.readers
  | .write => l.writer.toNat

/-- The lock after a side was given back. -/
def giveBack (l : Lock) : Side → Lock
  | .read => { l with readers := l.readers - 1 }
  | .write => { l with writer := false }

theorem release?_of_holds (h : l.holds side = true) : l.release? side = some (l.giveBack side) := by
  unfold release?
  rw [if_pos h]
  cases side <;> rfl

theorem release?_of_not_holds (h : l.holds side = false) : l.release? side = none := by
  unfold release?
  rw [h]
  rfl

theorem mustWait_read_iff :
    l.mustWait .read = true ↔ 0 < l.holders .write ∨ 0 < l.writersWaiting := by
  cases hw : l.writer <;> simp [mustWait, holders, hw]

theorem mustWait_write_iff :
    l.mustWait .write = true ↔ 0 < l.holders .write ∨ 0 < l.holders .read := by
  cases hw : l.writer <;> simp [mustWait, holders, hw]

theorem no_writer_of_not_mustWait (h : l.mustWait side = false) : l.holders .write = 0 := by
  by_contra hne
  have hpos := Nat.pos_of_ne_zero hne
  have hw : l.mustWait side = true := by
    cases side with
    | read => exact mustWait_read_iff.mpr (Or.inl hpos)
    | write => exact mustWait_write_iff.mpr (Or.inl hpos)
  rw [hw] at h
  cases h

theorem no_reader_of_not_mustWait (h : l.mustWait .write = false) : l.holders .read = 0 := by
  by_contra hne
  rw [mustWait_write_iff.mpr (Or.inr (Nat.pos_of_ne_zero hne))] at h
  cases h

theorem none_waiting_of_not_mustWait (h : l.mustWait .read = false) : l.writersWaiting = 0 := by
  by_contra hne
  rw [mustWait_read_iff.mpr (Or.inr (Nat.pos_of_ne_zero hne))] at h
  cases h

/-- A side is granted to one more holder; a writer is the first. -/
theorem holders_grant (h : l.mustWait side = false) (other : Side) :
    (l.grant side).holders other = l.holders other + if side = other then 1 else 0 := by
  cases side with
  | read => cases other <;> rfl
  | write =>
    cases other with
    | read => rfl
    | write =>
      rw [no_writer_of_not_mustWait h]
      rfl

theorem holders_giveBack (h : l.holds side = true) (other : Side) :
    l.holders other = (l.giveBack side).holders other + if side = other then 1 else 0 := by
  cases side with
  | read =>
    cases other with
    | read =>
      have hr : 0 < l.readers := by simpa [holds] using h
      simp only [giveBack, holders, if_true]
      omega
    | write => rfl
  | write =>
    cases other with
    | read => rfl
    | write =>
      have hw : l.writer = true := h
      simp [giveBack, holders, hw]

/-- A writer holds alone. -/
def Exclusive (l : Lock) : Prop := l.holders .write = 0 ∨ l.holders .read = 0

theorem exclusive_grant (h : l.mustWait side = false) : (l.grant side).Exclusive := by
  have hw := no_writer_of_not_mustWait h
  cases side with
  | read => exact Or.inl ((holders_grant h .write).trans hw)
  | write => exact Or.inr ((holders_grant h .read).trans (no_reader_of_not_mustWait h))

theorem Exclusive.giveBack (hex : l.Exclusive) (h : l.holds side = true) :
    (l.giveBack side).Exclusive := by
  have hr := holders_giveBack h .read
  have hw := holders_giveBack h .write
  rcases hex with hex | hex
  · exact Or.inl (by omega)
  · exact Or.inr (by omega)

@[simp] theorem writersWaiting_grant : (l.grant side).writersWaiting = l.writersWaiting := by
  cases side <;> rfl

@[simp] theorem writersWaiting_giveBack : (l.giveBack side).writersWaiting = l.writersWaiting := by
  cases side <;> rfl

namespace Monitor

@[simp] theorem holders_announce : (announce l side).holders other = l.holders other := by
  cases side <;> rfl

theorem writersWaiting_announce (l : Lock) (side : Side) :
    (announce l side).writersWaiting = l.writersWaiting + if side = .write then 1 else 0 := by
  cases side <;> rfl

/-- One's own announcement does not make one wait. -/
@[simp] theorem mustWait_announce : (announce l side).mustWait side = l.mustWait side := by
  cases side <;> rfl

/-- Who is granted the side on entry leaves no trace among those who wait. -/
theorem grantWaiter_announce : grantWaiter (announce l side) side = l.grant side := by
  cases side <;> rfl

@[simp] theorem holders_grantWaiter :
    (grantWaiter l side).holders other = (l.grant side).holders other := by
  cases side <;> cases other <;> rfl

theorem writersWaiting_grantWaiter (l : Lock) (side : Side) :
    (grantWaiter l side).writersWaiting = l.writersWaiting - if side = .write then 1 else 0 := by
  cases side <;> rfl

/-! ### The ways a section can go -/

/-- Those who wait, but for the acquisition of the name. -/
def others (m : Monitor) (id : Nat) : List Waiter := m.waiters.filter (·.id ≠ id)

/-- Those who wait, the acquisition of the name asleep again. -/
def asleepAgain (m : Monitor) (id : Nat) : List Waiter :=
  m.waiters.map fun v => if v.id = id then { v with notified := false } else v

/-- Those who wait after a side was given back. -/
def afterRelease (m : Monitor) (side : Side) : List Waiter :=
  if m.lock.wakes side then notifyAll m.waiters else m.waiters

/-- What a section can do, and what it leads to. -/
inductive Change (m : Monitor) : Move → Outcome → Monitor → Prop where
  | enter (id : Nat) (side : Side) (h : m.lock.mustWait side = false) :
      Change m (.enter id side) (.granted side) ⟨m.lock.grant side, m.waiters⟩
  | sleep (id : Nat) (side : Side) (h : m.lock.mustWait side = true) :
      Change m (.enter id side) (.asleep side)
        ⟨announce m.lock side, m.waiters ++ [{ id := id, side := side }]⟩
  | nobody (id : Nat) : Change m (.wake id) .nobody m
  | wake (w : Waiter) (hw : w ∈ m.waiters) (hn : w.notified = true)
      (h : m.lock.mustWait w.side = false) :
      Change m (.wake w.id) (.granted w.side) ⟨grantWaiter m.lock w.side, m.others w.id⟩
  | sleepAgain (w : Waiter) (hw : w ∈ m.waiters) (hn : w.notified = true)
      (h : m.lock.mustWait w.side = true) :
      Change m (.wake w.id) (.asleep w.side) ⟨m.lock, m.asleepAgain w.id⟩
  | release (side : Side) (h : m.lock.holds side = true) :
      Change m (.release side) (.released side) ⟨m.lock.giveBack side, m.afterRelease side⟩
  | unmatched (side : Side) (h : m.lock.holds side = false) :
      Change m (.release side) (.unmatched side) m

theorem change_enter (m : Monitor) (id : Nat) (side : Side) :
    Change m (.enter id side) (m.enter id side).1 (m.enter id side).2 := by
  unfold enter
  simp only [mustWait_announce, grantWaiter_announce]
  split
  · rename_i h
    exact .sleep id side h
  · rename_i h
    exact .enter id side (by simpa using h)

theorem change_wake (m : Monitor) (id : Nat) :
    Change m (.wake id) (m.wake id).1 (m.wake id).2 := by
  unfold wake
  split
  · exact .nobody id
  · rename_i w hfind
    have hw := List.mem_of_find?_eq_some hfind
    obtain ⟨hid, hn⟩ : w.id = id ∧ w.notified = true := by
      simpa using List.find?_some hfind
    subst hid
    split
    · rename_i h
      exact .sleepAgain w hw hn h
    · rename_i h
      exact .wake w hw hn (by simpa using h)

theorem change_release (m : Monitor) (side : Side) :
    Change m (.release side) (m.release side).1 (m.release side).2 := by
  unfold release
  cases h : m.lock.holds side with
  | true =>
    rw [release?_of_holds h]
    exact .release side h
  | false =>
    rw [release?_of_not_holds h]
    exact .unmatched side h

theorem change_step (m : Monitor) (move : Move) :
    Change m move (m.step move).1 (m.step move).2 := by
  cases move with
  | enter id side => exact change_enter m id side
  | wake id => exact change_wake m id
  | release side => exact change_release m side

/-- A side is granted only where its acquisition does not have to wait. -/
theorem Change.not_mustWait {m m' : Monitor} {move : Move}
    (hc : Change m move (.granted side) m') : m.lock.mustWait side = false := by
  generalize ho : Outcome.granted side = o at hc
  cases hc with
  | enter id s h =>
    injection ho with hs
    rwa [← hs] at h
  | wake w hw hn h =>
    injection ho with hs
    rwa [← hs] at h
  | _ => cases ho

/-- Whoever was notified and need not wait is granted the side when it wakes. -/
theorem wake_granted {m : Monitor} {w : Waiter} (hids : (m.waiters.map (·.id)).Nodup)
    (hw : w ∈ m.waiters) (hn : w.notified = true) (h : m.lock.mustWait w.side = false) :
    (m.wake w.id).1 = .granted w.side := by
  have hfind : m.waiters.find? (fun v => v.id == w.id && v.notified) = some w := by
    obtain ⟨v, hv⟩ : ∃ v, m.waiters.find? (fun v => v.id == w.id && v.notified) = some v :=
      Option.isSome_iff_exists.mp (List.find?_isSome.mpr ⟨w, hw, by simp [hn]⟩)
    have hid : v.id = w.id := by
      have hv' := List.find?_some hv
      simp only [Bool.and_eq_true, beq_iff_eq] at hv'
      exact hv'.1
    have hvw := List.inj_on_of_nodup_map hids (List.mem_of_find?_eq_some hv) hw hid
    rw [hv, hvw]
  unfold wake
  rw [hfind]
  simp only [h, Bool.false_eq_true, if_false]

end Monitor

end TreeStore.Lock
