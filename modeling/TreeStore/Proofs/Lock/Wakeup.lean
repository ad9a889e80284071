import TreeStore.Proofs.Lock.Exclusion

/-!
# No wake-up is lost

A thread that sleeps is not woken unless it is notified, and only releases notify: that of a writer
and that of the last reader.  A grant can only make others wait longer, and a writer that stops
waiting holds the lock instead; so whoever was not notified still has a reason to sleep, `Alert`.

* `Run.no_lost_wakeup`: who sleeps has to, a free lock is taken by a thread that was notified, and
  without a notified thread the lock is held.
-/

namespace TreeStore.Lock

variable {l : Lock} {side other : Side}

/-! ### What makes others wait -/

/-- A reader waits for a writer that holds or waits, a writer for anyone who holds. -/
theorem mustWait_of_le {l' : Lock} (hr : l.holders .read ≤ l'.holders .read)
    (hw : l.holders .write ≤ l'.holders .write) (hn : l.writersWaiting ≤ l'.writersWaiting)
    (h : l.mustWait side = true) : l'.mustWait side = true := by
  cases side with
  | read =>
    rw [mustWait_read_iff] at h ⊢
    omega
  | write =>
    rw [mustWait_write_iff] at h ⊢
    omega

theorem mustWait_grant (hs : l.mustWait side = false) (h : l.mustWait other = true) :
    (l.grant side).mustWait other = true := by
  have hle (s : Side) : l.holders s ≤ (l.grant side).holders s := by
    rw [holders_grant hs]
    exact Nat.le_add_right _ _
  exact mustWait_of_le (hle .read) (hle .write) (by rw [writersWaiting_grant]) h

/-- A release that notifies nobody leaves everybody with a reason to wait. -/
theorem mustWait_giveBack (hs : l.holds side = true) (hwakes : l.wakes side = false)
    (h : l.mustWait other = true) : (l.giveBack side).mustWait other = true := by
  cases side with
  | write => cases hwakes
  | read =>
    have hr : l.readers ≠ 1 := by simpa [wakes] using hwakes
    have hpos : 0 < l.readers := by simpa [holds] using hs
    cases other with
    | read => exact h
    | write =>
      rw [mustWait_write_iff]
      right
      show 0 < l.readers - 1
      omega

namespace Monitor

theorem mustWait_of_announce (h : l.mustWait other = true) :
    (announce l side).mustWait other = true := by
  refine mustWait_of_le (by simp) (by simp) ?_ h
  rw [writersWaiting_announce]
  exact Nat.le_add_right _ _

/-- Everybody waits for a writer that was granted the lock. -/
theorem mustWait_grantWaiter (hs : l.mustWait side = false) (h : l.mustWait other = true) :
    (grantWaiter l side).mustWait other = true := by
  cases side with
  | read => exact mustWait_grant hs h
  | write => cases other <;> rfl

/-! ### Sleepers have a reason -/

/-- Whoever sleeps and was not notified has to wait. -/
def Alert (m : Monitor) : Prop :=
  ∀ w ∈ m.waiters, w.notified = false → m.lock.mustWait w.side = true

variable {h : History} {m m' : Monitor} {move : Move} {o : Outcome}

theorem Accounted.eq_of_id {v w : Waiter} (acc : Accounted h m) (hv : v ∈ m.waiters)
    (hw : w ∈ m.waiters) (hid : v.id = w.id) : v = w := by
  have hd := acc.distinct
  rw [map_id_queue] at hd
  exact List.inj_on_of_nodup_map hd hv hw hid

theorem Alert.step (acc : Accounted h m) (alert : m.Alert) (hc : Change m move o m') :
    m'.Alert := by
  intro v hv hn'
  cases hc with
  | enter id s hs => exact mustWait_grant hs (alert v hv hn')
  | sleep id s hs =>
    rcases List.mem_append.mp hv with hv | hv
    · exact mustWait_of_announce (alert v hv hn')
    · rw [List.mem_singleton.mp hv]
      exact mustWait_announce.trans hs
  | nobody id => exact alert v hv hn'
  | wake w hw hn hs => exact mustWait_grantWaiter hs (alert v (List.mem_of_mem_filter hv) hn')
  | sleepAgain w hw hn hs =>
    obtain ⟨u, hu, rfl⟩ := List.mem_map.mp hv
    by_cases hid : u.id = w.id
    · rw [acc.eq_of_id hu hw hid, if_pos rfl]
      exact hs
    · rw [if_neg hid] at hn' ⊢
      exact alert u hu hn'
  | release s hs =>
    simp only [afterRelease] at hv
    cases hwakes : m.lock.wakes s with
    | true =>
      rw [hwakes, if_pos rfl] at hv
      obtain ⟨u, -, rfl⟩ := List.mem_map.mp hv
      cases hn'
    | false =>
      rw [hwakes] at hv
      exact mustWait_giveBack hs hwakes (alert v hv hn')
  | unmatched s hs => exact alert v hv hn'

theorem Run.alert (run : Run h m) : m.Alert := by
  induction run with
  | start => exact fun w hw => absurd hw List.not_mem_nil
  | next run move admits ih => exact ih.step run.accounted (change_step _ move)

/-! ### Runs -/

/-- A thread inside an acquisition is one of those who wait. -/
theorem Accounted.exists_waiter (acc : Accounted h m) {id : Nat} {side : Side}
    (hin : h.Inside id side) : ∃ w ∈ m.waiters, w.id = id ∧ w.side = side := by
  obtain ⟨w, hw, heq⟩ := List.mem_map.mp ((acc.inside id side).mpr hin)
  exact ⟨w, hw, (Prod.mk.inj heq).1, (Prod.mk.inj heq).2⟩

/-- If nobody holds the lock but somebody waits, somebody who waits need not: a writer, or a reader
if no writer waits. -/
theorem Accounted.exists_ready (acc : Accounted h m) (hr : m.lock.holders .read = 0)
    (hw : m.lock.holders .write = 0) {w : Waiter} (hm : w ∈ m.waiters) :
    ∃ v ∈ m.waiters, m.lock.mustWait v.side = false := by
  by_cases hwriter : ∃ v ∈ m.waiters, v.side = .write
  · obtain ⟨v, hv, hside⟩ := hwriter
    refine ⟨v, hv, ?_⟩
    rw [hside, ← Bool.not_eq_true, mustWait_write_iff]
    omega
  · have hnone : m.lock.writersWaiting = 0 := by
      rw [acc.waiting, List.countP_eq_zero]
      intro e he hside
      obtain ⟨v, hv, rfl⟩ := List.mem_map.mp he
      exact hwriter ⟨v, hv, by simpa using hside⟩
    have hside : w.side = .read := by
      cases h : w.side with
      | read => rfl
      | write => exact absurd ⟨w, hm, h⟩ hwriter
    refine ⟨w, hm, ?_⟩
    rw [hside, ← Bool.not_eq_true, mustWait_read_iff]
    omega

/-- Writers that are counted as waiting are threads inside an acquisition. -/
theorem Accounted.exists_writer (acc : Accounted h m) (hpos : 0 < m.lock.writersWaiting) :
    ∃ writer, h.Inside writer .write := by
  rw [acc.waiting, List.countP_pos_iff] at hpos
  obtain ⟨⟨writer, side⟩, he, hs⟩ := hpos
  obtain rfl : side = .write := by simpa using hs
  exact ⟨writer, (acc.inside writer .write).mp he⟩

/-- Why a thread sleeps that was not notified. -/
theorem Run.reason (run : Run h m) {w : Waiter} (hw : w ∈ m.waiters) (hn : w.notified = false) :
    (w.side = .read → m.lock.writer = true ∨ 0 < m.lock.writersWaiting) ∧
      (w.side = .write → m.lock.writer = true ∨ 0 < m.lock.readers) := by
  have hwait := run.alert w hw hn
  refine ⟨fun hside => ?_, fun hside => ?_⟩
  · simpa [hside, mustWait] using hwait
  · simpa [hside, mustWait] using hwait

/-- If nobody holds the lock but a thread is inside an acquisition, some thread was notified that
need not wait: one that was not would sleep for a reason. -/
theorem Run.exists_notified (run : Run h m) (hr : m.lock.readers = 0) (hw : m.lock.writer = false)
    {id : Nat} {side : Side} (hin : h.Inside id side) :
    ∃ w ∈ m.waiters, w.notified = true ∧ m.lock.mustWait w.side = false := by
  obtain ⟨v, hv, -⟩ := run.accounted.exists_waiter hin
  obtain ⟨w, hmem, hgo⟩ := run.accounted.exists_ready hr (by simp [holders, hw]) hv
  refine ⟨w, hmem, ?_, hgo⟩
  by_contra hn
  rw [run.alert w hmem (by simpa using hn)] at hgo
  cases hgo

/-- A thread inside an acquisition either was notified, or is asleep with its reason to wait: a
writer that holds or waits for a reader, anyone who holds for a writer.  So if the lock is free and
a thread is inside, some thread inside was notified and is granted its side when it wakes; and if
nobody was notified, threads are inside only while the lock is held, readers beside readers only
while a writer is inside too. -/
theorem Run.no_lost_wakeup (run : Run h m) :
    (∀ id side, h.Inside id side → ∃ w ∈ m.waiters, w.id = id ∧ w.side = side ∧
      (w.notified = false →
        (side = .read → m.lock.writer = true ∨ 0 < m.lock.writersWaiting) ∧
        (side = .write → m.lock.writer = true ∨ 0 < m.lock.readers))) ∧
    (m.lock.readers = 0 → m.lock.writer = false → ∀ id side, h.Inside id side →
      ∃ w ∈ m.waiters, w.notified = true ∧ h.Inside w.id w.side ∧
        (m.step (.wake w.id)).1 = .granted w.side) ∧
    ((∀ w ∈ m.waiters, w.notified = false) →
      (∀ id side, h.Inside id side → m.lock.isLocked = true) ∧
      ∀ id, h.Inside id .read → 0 < m.lock.readers → ∃ writer, h.Inside writer .write) := by
  have acc := run.accounted
  refine ⟨?_, ?_, fun hnone => ⟨?_, ?_⟩⟩
  · intro id side hin
    obtain ⟨w, hw, rfl, rfl⟩ := acc.exists_waiter hin
    exact ⟨w, hw, rfl, rfl, run.reason hw⟩
  · intro hr hw id side hin
    obtain ⟨w, hmem, hn, hgo⟩ := run.exists_notified hr hw hin
    have hd := acc.distinct
    rw [map_id_queue] at hd
    exact ⟨w, hmem, hn, (acc.inside _ _).mp (mem_queue hmem), wake_granted hd hmem hn hgo⟩
  · intro id side hin
    by_contra hfree
    simp only [isLocked, Bool.or_eq_true, decide_eq_true_eq, not_or, Nat.not_lt,
      Nat.le_zero, Bool.not_eq_true] at hfree
    obtain ⟨w, hmem, hn, -⟩ := run.exists_notified hfree.2 hfree.1 hin
    rw [hnone w hmem] at hn
    cases hn
  · intro id hin hpos
    obtain ⟨w, hw, -, hside⟩ := acc.exists_waiter hin
    -- with readers inside the lock no writer holds it, so the reader waits for a writer that waits
    have hwriter : m.lock.writer = false := by
      rcases acc.exclusive with hex | hex
      · exact Bool.toNat_eq_zero.mp hex
      · exact absurd hex (Nat.ne_of_gt hpos)
    have hwaiting : 0 < m.lock.writersWaiting := by
      simpa [hwriter] using (run.reason hw (hnone w hw)).1 hside
    exact acc.exists_writer hwaiting

/-- The last reader leaves while a writer and a reader wait: the writer can take the lock. -/
theorem no_lost_wakeup_last_reader :
    ∃ h m, Run h m ∧ m.lock.readers = 0 ∧ m.lock.writer = false ∧ h.Inside 1 .write ∧
      ∃ w ∈ m.waiters, w.notified = true ∧ h.Inside w.id w.side ∧
        (m.step (.wake w.id)).1 = .granted w.side := by
  have run := (((Run.start.next (.enter 0 .read) (by decide)).next (.enter 1 .write)
    (by decide)).next (.enter 2 .read) (by decide)).next (.release .read) (by decide)
  have hin := (run.accounted.inside 1 .write).mp (by decide)
  obtain ⟨-, hfree, -⟩ := run.no_lost_wakeup
  exact ⟨_, _, run, rfl, rfl, hin, hfree rfl rfl 1 .write hin⟩

end Monitor

end TreeStore.Lock
