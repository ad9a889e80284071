import TreeStore.Proofs.Lock.Wakeup

/-!
# What comes of a release

A release that frees the lock notifies everybody who waits, and those who were notified wake in any
order.  If a writer waits, the first writer that wakes is granted the lock: readers that wake before
it go back to sleep because a writer waits, everybody who wakes after it because a writer holds.  If
none waits, every reader is granted the lock.  So the order may decide which writer it is, but not
how many are granted a side, nor what the lock counts in the end.

* `wakeAll_of_mustWait`, `wakeAll_writer`, `wakeAll_readers`: the three things that can come of it
  if everybody who was notified wakes, proved for any part of them that has woken already.
* `Run.release_settles`: which of the three a release leads to.
-/

namespace TreeStore.Lock.Monitor

variable {h : History} {m : Monitor} {ids : List Nat} {side : Side}

/-- All who were notified are among the names, in any order. -/
def Rouses (m : Monitor) (ids : List Nat) : Prop :=
  ∀ w ∈ m.waiters, w.notified = true → w.id ∈ ids

instance (m : Monitor) (ids : List Nat) : Decidable (m.Rouses ids) :=
  inferInstanceAs (Decidable (∀ w ∈ m.waiters, w.notified = true → w.id ∈ ids))

/-- The same acquisitions, all of them asleep. -/
def asleep (ws : List Waiter) : List Waiter := ws.map fun w => { w with notified := false }

theorem asleep_of_calm {ws : List Waiter} (calm : ∀ w ∈ ws, w.notified = false) :
    asleep ws = ws := by
  refine (List.map_congr_left fun w hw => ?_).trans (List.map_id ws)
  rw [← calm w hw]
  rfl

theorem asleep_notifyAll (ws : List Waiter) : asleep (notifyAll ws) = asleep ws := by
  unfold asleep notifyAll
  rw [List.map_map]
  rfl

theorem asleep_asleepAgain (m : Monitor) (id : Nat) :
    asleep (m.asleepAgain id) = asleep m.waiters := by
  unfold asleep asleepAgain
  rw [List.map_map]
  refine List.map_congr_left fun w _ => ?_
  simp only [Function.comp_apply]
  split_ifs <;> rfl

theorem mem_asleepAgain {w : Waiter} {id : Nat} (hw : w ∈ m.waiters) (hid : w.id ≠ id) :
    w ∈ m.asleepAgain id :=
  List.mem_map.mpr ⟨w, hw, if_neg hid⟩

theorem of_mem_asleepAgain {w : Waiter} {id : Nat} (hw : w ∈ m.asleepAgain id)
    (hn : w.notified = true) : w ∈ m.waiters ∧ w.id ≠ id := by
  obtain ⟨v, hv, rfl⟩ := List.mem_map.mp hw
  split_ifs at hn ⊢ with hid
  exact ⟨hv, hid⟩

theorem asleep_others (m : Monitor) (id : Nat) :
    asleep (m.others id) = (asleep m.waiters).filter (·.id ≠ id) := by
  unfold asleep others
  rw [List.filter_map]
  rfl

theorem length_others (hids : (m.waiters.map (·.id)).Nodup) {w : Waiter} (hw : w ∈ m.waiters) :
    m.waiters.length = (m.others w.id).length + 1 := by
  have hd : ((queue m.waiters).map (·.1)).Nodup := by rwa [map_id_queue]
  have hcount := countP_filter_ne hd (mem_queue hw) fun _ => true
  rw [← queue_others] at hcount
  simpa [queue] using hcount

/-! ### One after the other -/

/-- A thread that wakes was not notified, or has to wait again, or is granted its side. -/
theorem wake_cases (m : Monitor) (id : Nat) :
    ((∀ w ∈ m.waiters, w.notified = true → w.id ≠ id) ∧ m.wake id = (.nobody, m)) ∨
    ∃ w ∈ m.waiters, w.notified = true ∧ w.id = id ∧
      ((m.lock.mustWait w.side = true ∧
          m.wake id = (.asleep w.side, ⟨m.lock, m.asleepAgain id⟩)) ∨
        (m.lock.mustWait w.side = false ∧
          m.wake id = (.granted w.side, ⟨grantWaiter m.lock w.side, m.others id⟩))) := by
  unfold wake
  cases hfind : m.waiters.find? fun w => w.id == id && w.notified with
  | none =>
    refine Or.inl ⟨fun w hw hn hid => ?_, rfl⟩
    have hnot := List.find?_eq_none.mp hfind w hw
    simp [hn, hid] at hnot
  | some w =>
    have hw := List.mem_of_find?_eq_some hfind
    obtain ⟨hid, hn⟩ : w.id = id ∧ w.notified = true := by simpa using List.find?_some hfind
    refine Or.inr ⟨w, hw, hn, hid, ?_⟩
    cases hwait : m.lock.mustWait w.side with
    | true => exact Or.inl ⟨rfl, by simp [hwait, asleepAgain]⟩
    | false => exact Or.inr ⟨rfl, by simp [hwait, others]⟩

section Cons

variable {id : Nat} {m' : Monitor}

theorem wakeAll_nobody (h : m.wake id = (.nobody, m')) :
    m.wakeAll (id :: ids) = m'.wakeAll ids := by
  rw [wakeAll, h]

theorem wakeAll_asleep (h : m.wake id = (.asleep side, m')) :
    m.wakeAll (id :: ids) = m'.wakeAll ids := by
  rw [wakeAll, h]

theorem wakeAll_granted (h : m.wake id = (.granted side, m')) :
    m.wakeAll (id :: ids) = (side :: (m'.wakeAll ids).1, (m'.wakeAll ids).2) := by
  rw [wakeAll, h]

end Cons

section Rouse

variable {id : Nat} (hall : m.Rouses (id :: ids))
include hall

theorem Rouses.of_nobody (hnone : ∀ w ∈ m.waiters, w.notified = true → w.id ≠ id) :
    m.Rouses ids :=
  fun w hw hn => List.mem_of_ne_of_mem (hnone w hw hn) (hall w hw hn)

theorem Rouses.asleepAgain (l : Lock) : Rouses ⟨l, m.asleepAgain id⟩ ids := by
  intro w hw hn
  obtain ⟨hw, hid⟩ := of_mem_asleepAgain hw hn
  exact List.mem_of_ne_of_mem hid (hall w hw hn)

theorem Rouses.others (l : Lock) : Rouses ⟨l, m.others id⟩ ids := by
  intro w hw hn
  obtain ⟨hw, hid⟩ := List.mem_filter.mp hw
  exact List.mem_of_ne_of_mem (of_decide_eq_true hid) (hall w hw hn)

end Rouse

/-! ### Everybody who was notified wakes -/

/-- If all of them have to wait, all go back to sleep. -/
theorem wakeAll_of_mustWait
    (hwait : ∀ w ∈ m.waiters, w.notified = true → m.lock.mustWait w.side = true)
    (hall : m.Rouses ids) : m.wakeAll ids = ([], ⟨m.lock, asleep m.waiters⟩) := by
  induction ids generalizing m with
  | nil =>
    have calm : ∀ w ∈ m.waiters, w.notified = false := fun w hw =>
      Bool.eq_false_iff.mpr fun hn => absurd (hall w hw hn) List.not_mem_nil
    rw [asleep_of_calm calm]
    rfl
  | cons id ids ih =>
    rcases wake_cases m id with ⟨hnone, hwake⟩ |
      ⟨w, hw, hn, rfl, ⟨-, hwake⟩ | ⟨hgo, -⟩⟩
    · rw [wakeAll_nobody hwake]
      exact ih hwait (hall.of_nobody hnone)
    · rw [wakeAll_asleep hwake, ih (fun v hv hn' => ?_) (hall.asleepAgain _), asleep_asleepAgain]
      exact hwait v (of_mem_asleepAgain hv hn').1 hn'
    · rw [hwait w hw hn] at hgo
      cases hgo

/-- If nobody holds the lock and a writer was notified, one writer is granted it and all others go
back to sleep. -/
theorem wakeAll_writer (hids : (m.waiters.map (·.id)).Nodup) (hr : m.lock.readers = 0)
    (hw : m.lock.writer = false) (hpos : 0 < m.lock.writersWaiting)
    (hready : ∃ w ∈ m.waiters, w.side = .write ∧ w.notified = true) (hall : m.Rouses ids) :
    ∃ id, (id, .write) ∈ queue m.waiters ∧ m.wakeAll ids =
      ([.write], ⟨⟨0, true, m.lock.writersWaiting - 1⟩,
        (asleep m.waiters).filter (·.id ≠ id)⟩) := by
  have hgo : m.lock.mustWait .write = false := by simp [mustWait, hr, hw]
  have hwait : m.lock.mustWait .read = true := mustWait_read_iff.mpr (Or.inr hpos)
  obtain ⟨v, hv, hside, hn⟩ := hready
  induction ids generalizing m with
  | nil => exact absurd (hall v hv hn) List.not_mem_nil
  | cons id ids ih =>
    rcases wake_cases m id with ⟨hnone, hwake⟩ |
      ⟨w, hmem, hn', rfl, ⟨hagain, hwake⟩ | ⟨hfirst, hwake⟩⟩
    · rw [wakeAll_nobody hwake]
      exact ih hids hr hw hpos (hall.of_nobody hnone) hgo hwait hv
    · -- a reader, since a writer would not have to wait; the writer is still notified
      have hne : v.id ≠ w.id := fun hid => by
        rw [← List.inj_on_of_nodup_map hids hv hmem hid, hside, hgo] at hagain
        cases hagain
      have hids' : ((m.asleepAgain w.id).map (·.id)).Nodup := by
        rw [← map_id_queue, queue_asleepAgain, map_id_queue]
        exact hids
      obtain ⟨id, hid, hrest⟩ := ih (m := ⟨m.lock, m.asleepAgain w.id⟩) hids' hr hw hpos
        (hall.asleepAgain _) hgo hwait (mem_asleepAgain hv hne)
      refine ⟨id, by rwa [queue_asleepAgain] at hid, ?_⟩
      rw [wakeAll_asleep hwake, hrest, asleep_asleepAgain]
    · have hwrite : w.side = .write := by
        cases hs : w.side with
        | write => rfl
        | read =>
          rw [hs, hwait] at hfirst
          cases hfirst
      refine ⟨w.id, ?_, ?_⟩
      · rw [← hwrite]
        exact mem_queue hmem
      · rw [wakeAll_granted hwake, hwrite, wakeAll_of_mustWait (fun u _ _ => ?_) (hall.others _)]
        · rw [asleep_others, grantWaiter, grant, hr]
        · cases u.side <;> rfl

/-- If no writer holds the lock or waits and all readers were notified, all of them are granted
it. -/
theorem wakeAll_readers (hids : (m.waiters.map (·.id)).Nodup) (hw : m.lock.writer = false)
    (hnone : m.lock.writersWaiting = 0)
    (hready : ∀ w ∈ m.waiters, w.side = .read ∧ w.notified = true) (hall : m.Rouses ids) :
    m.wakeAll ids = (List.replicate m.waiters.length .read,
      ⟨⟨m.lock.readers + m.waiters.length, false, 0⟩, []⟩) := by
  induction ids generalizing m with
  | nil =>
    cases hws : m.waiters with
    | nil =>
      obtain ⟨⟨readers, writer, waiting⟩, ws⟩ := m
      cases hw
      cases hnone
      cases hws
      rfl
    | cons w ws =>
      have hmem : w ∈ m.waiters := by rw [hws]; exact List.mem_cons_self
      exact absurd (hall w hmem (hready w hmem).2) List.not_mem_nil
  | cons id ids ih =>
    have hgo : m.lock.mustWait .read = false := by simp [mustWait, hw, hnone]
    rcases wake_cases m id with ⟨hno, hwake⟩ |
      ⟨w, hmem, -, rfl, ⟨hagain, -⟩ | ⟨-, hwake⟩⟩
    · rw [wakeAll_nobody hwake]
      exact ih hids hw hnone hready (hall.of_nobody hno)
    · rw [(hready w hmem).1, hgo] at hagain
      cases hagain
    · have hside := (hready w hmem).1
      have hrest := ih (m := ⟨grantWaiter m.lock .read, m.others w.id⟩)
        (hids.sublist (List.filter_sublist.map _)) hw hnone
        (fun v hv => hready v (List.mem_of_mem_filter hv)) (hall.others _)
      rw [wakeAll_granted hwake, hside, hrest, length_others hids hmem, List.replicate_succ]
      show (_, (⟨⟨m.lock.readers + 1 + _, _, _⟩, _⟩ : Monitor)) = _
      rw [Nat.add_assoc, Nat.add_comm 1]

/-! ### Releases -/

theorem isLocked_giveBack {l : Lock} (hex : l.Exclusive) (h : l.holds side = true) :
    (l.giveBack side).isLocked = !l.wakes side := by
  cases side with
  | write =>
    have hw : l.writer = true := h
    have hr : l.readers = 0 := hex.resolve_left (by simp [holders, hw])
    simp [giveBack, isLocked, wakes, hr]
  | read =>
    have hr : 0 < l.readers := by simpa [holds] using h
    have hw : l.writer = false := Bool.toNat_eq_zero.mp (hex.resolve_right (Nat.ne_of_gt hr))
    by_cases hone : l.readers = 1
    · simp [giveBack, isLocked, wakes, hw, hone]
    · have hmore : 0 < l.readers - 1 := by omega
      simp [giveBack, isLocked, wakes, hw, hone, hmore]

section Release

variable (run : Run h m) {m₁ : Monitor} (hrelease : m.step (.release side) = (.released side, m₁))
  (calm : ∀ w ∈ m.waiters, w.notified = false)
include run hrelease

/-- A release either leaves the lock held and everybody as they are, or frees it and notifies
everybody. -/
theorem Run.release_cases :
    (m₁.lock.isLocked = true ∧ m₁.waiters = m.waiters) ∨
      (m₁.lock = ⟨0, false, m.lock.writersWaiting⟩ ∧ m₁.waiters = notifyAll m.waiters) := by
  have hchange := change_step m (.release side)
  rw [hrelease] at hchange
  cases hchange with
  | release _ hh =>
    have hlocked := isLocked_giveBack run.accounted.exclusive hh
    cases hwakes : m.lock.wakes side with
    | false => exact Or.inl ⟨by rw [hlocked, hwakes]; rfl, by simp [afterRelease, hwakes]⟩
    | true =>
      have hwaiting : (m.lock.giveBack side).writersWaiting = m.lock.writersWaiting :=
        writersWaiting_giveBack
      obtain ⟨hw, hr⟩ : (m.lock.giveBack side).writer = false ∧
          (m.lock.giveBack side).readers = 0 := by simpa [isLocked, hwakes] using hlocked
      refine Or.inr ⟨?_, by simp [afterRelease, hwakes]⟩
      show m.lock.giveBack side = _
      rw [← hw, ← hr, ← hwaiting]

/-- A release that frees the lock notifies everybody. -/
theorem Run.release_free (hfree : m₁.lock.isLocked = false) :
    m₁.lock = ⟨0, false, m.lock.writersWaiting⟩ ∧ m₁.waiters = notifyAll m.waiters := by
  rcases run.release_cases hrelease with ⟨hheld, -⟩ | hfree
  · rw [hheld] at hfree
    cases hfree
  · exact hfree

theorem Run.nodup_release : (m₁.waiters.map (·.id)).Nodup := by
  have hids := run.accounted.distinct
  rw [← map_id_queue]
  rcases run.release_cases hrelease with ⟨-, hws⟩ | ⟨-, hws⟩
  · rwa [hws]
  · rwa [hws, queue_notifyAll]

theorem Run.release_readers (hfree : m₁.lock.isLocked = false)
    (hreaders : ∀ w ∈ m.waiters, w.side = .read) (hall : m₁.Rouses ids) :
    m₁.wakeAll ids =
      (List.replicate m.waiters.length .read, ⟨⟨m.waiters.length, false, 0⟩, []⟩) := by
  obtain ⟨hlock, hws⟩ := run.release_free hrelease hfree
  have hnone : m.lock.writersWaiting = 0 := by
    rw [run.accounted.waiting, List.countP_eq_zero]
    rintro _ he
    obtain ⟨w, hw, rfl⟩ := List.mem_map.mp he
    simp [hreaders w hw]
  have hready : ∀ v ∈ m₁.waiters, v.side = .read ∧ v.notified = true := by
    rw [hws]
    intro v hv
    obtain ⟨w, hw, rfl⟩ := List.mem_map.mp hv
    exact ⟨hreaders w hw, rfl⟩
  rw [wakeAll_readers (run.nodup_release hrelease) (by rw [hlock]) (by rw [hlock, hnone]) hready
    hall, hlock, hws, notifyAll, List.length_map, Nat.zero_add]

include calm

theorem Run.release_held (hheld : m₁.lock.isLocked = true) (ids : List Nat) :
    m₁.wakeAll ids = ([], m₁) := by
  rcases run.release_cases hrelease with ⟨-, hws⟩ | ⟨hlock, -⟩
  · have hnone (w : Waiter) (hw : w ∈ m₁.waiters) (hn : w.notified = true) : False := by
      rw [hws] at hw
      rw [calm w hw] at hn
      cases hn
    rw [wakeAll_of_mustWait (fun w hw hn => (hnone w hw hn).elim)
      fun w hw hn => (hnone w hw hn).elim, asleep_of_calm (by rwa [hws])]
  · rw [hlock] at hheld
    cases hheld

theorem Run.release_writer (hfree : m₁.lock.isLocked = false)
    (hwriter : ∃ w ∈ m.waiters, w.side = .write) (hall : m₁.Rouses ids) :
    ∃ w ∈ m.waiters, w.side = .write ∧ m₁.wakeAll ids =
      ([.write], ⟨⟨0, true, m.lock.writersWaiting - 1⟩, m.waiters.filter (·.id ≠ w.id)⟩) := by
  obtain ⟨hlock, hws⟩ := run.release_free hrelease hfree
  obtain ⟨w, hw, hside⟩ := hwriter
  have hpos : 0 < m.lock.writersWaiting := by
    rw [run.accounted.waiting, List.countP_pos_iff]
    exact ⟨_, mem_queue hw, decide_eq_true hside⟩
  have hready : ∃ v ∈ m₁.waiters, v.side = .write ∧ v.notified = true := by
    rw [hws]
    exact ⟨_, List.mem_map_of_mem hw, hside, rfl⟩
  obtain ⟨id, hid, hend⟩ := wakeAll_writer (run.nodup_release hrelease) (by rw [hlock])
    (by rw [hlock]) (by rw [hlock]; exact hpos) hready hall
  rw [hws, queue_notifyAll] at hid
  obtain ⟨v, hv, heq⟩ := List.mem_map.mp hid
  obtain ⟨rfl, hwrite⟩ := Prod.mk.inj heq
  rw [hws, asleep_notifyAll, asleep_of_calm calm, hlock] at hend
  exact ⟨v, hv, hwrite, hend⟩

end Release

/-- A release that succeeds where no thread inside an acquisition was notified.  If the lock is
still held, nobody is granted it, whoever wakes.  If it is free and a writer waits, then in whatever
order those who were notified wake, one writer is granted the lock and everybody else waits again,
asleep as before; if it is free and no writer waits, all who wait are readers and are granted it.
The counters end the same for every order. -/
theorem Run.release_settles (run : Run h m) (side : Side) {m₁ : Monitor}
    (hrelease : m.step (.release side) = (.released side, m₁))
    (calm : ∀ w ∈ m.waiters, w.notified = false) :
    (m₁.lock.isLocked = true → ∀ ids, m₁.wakeAll ids = ([], m₁)) ∧
    (m₁.lock.isLocked = false → (∃ w ∈ m.waiters, w.side = .write) → ∀ ids, m₁.Rouses ids →
      ∃ w ∈ m.waiters, w.side = .write ∧ m₁.wakeAll ids =
        ([.write], ⟨⟨0, true, m.lock.writersWaiting - 1⟩, m.waiters.filter (·.id ≠ w.id)⟩)) ∧
    (m₁.lock.isLocked = false → (¬ ∃ w ∈ m.waiters, w.side = .write) → ∀ ids, m₁.Rouses ids →
      (∀ w ∈ m.waiters, w.side = .read) ∧ m₁.wakeAll ids =
        (List.replicate m.waiters.length .read, ⟨⟨m.waiters.length, false, 0⟩, []⟩)) ∧
    ∃ last : Lock, ∀ ids, m₁.Rouses ids → (m₁.wakeAll ids).2.lock = last := by
  have hreaders (hno : ¬ ∃ w ∈ m.waiters, w.side = .write) : ∀ w ∈ m.waiters, w.side = .read := by
    intro w hw
    cases hside : w.side with
    | read => rfl
    | write => exact absurd ⟨w, hw, hside⟩ hno
  refine ⟨run.release_held hrelease calm, fun hfree hwriter ids => ?_, fun hfree hno ids hall => ?_,
    ?_⟩
  · exact run.release_writer hrelease calm hfree hwriter
  · exact ⟨hreaders hno, run.release_readers hrelease hfree (hreaders hno) hall⟩
  · cases hlocked : m₁.lock.isLocked with
    | true =>
      exact ⟨m₁.lock, fun ids _ => by rw [run.release_held hrelease calm hlocked]⟩
    | false =>
      by_cases hwriter : ∃ w ∈ m.waiters, w.side = .write
      · refine ⟨⟨0, true, m.lock.writersWaiting - 1⟩, fun ids hall => ?_⟩
        obtain ⟨w, -, -, hend⟩ := run.release_writer hrelease calm hlocked hwriter hall
        rw [hend]
      · refine ⟨⟨m.waiters.length, false, 0⟩, fun ids hall => ?_⟩
        rw [run.release_readers hrelease hlocked (hreaders hwriter) hall]

/-- The last reader leaves while two writers and a reader wait: whoever of them wakes first, one
writer is granted the lock, and the two others wait again. -/
theorem release_settles_two_writers :
    ∃ h m m₁, Run h m ∧ m.step (.release .read) = (.released .read, m₁) ∧
      (∀ w ∈ m.waiters, w.notified = false) ∧ m₁.lock.isLocked = false ∧
      (∃ w ∈ m.waiters, w.side = .write) ∧ m₁.Rouses [2, 3, 1] ∧ m₁.Rouses [1, 2, 3] ∧
      (∃ w ∈ m.waiters, w.side = .write ∧ m₁.wakeAll [2, 3, 1] =
        ([.write], ⟨⟨0, true, 1⟩, m.waiters.filter (·.id ≠ w.id)⟩)) ∧
      (m₁.wakeAll [2, 3, 1]).2.lock = (m₁.wakeAll [1, 2, 3]).2.lock := by
  have run := (((Run.start.next (.enter 0 .read) (by decide)).next (.enter 1 .write)
    (by decide)).next (.enter 2 .read) (by decide)).next (.enter 3 .write) (by decide)
  obtain ⟨-, hwriter, -, last, hlast⟩ := run.release_settles .read rfl (by decide)
  refine ⟨_, _, _, run, rfl, by decide, rfl, by decide, by decide, by decide, ?_, ?_⟩
  · exact hwriter rfl (by decide) _ (by decide)
  · rw [hlast _ (by decide), hlast _ (by decide)]

end TreeStore.Lock.Monitor
