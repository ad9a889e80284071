import TreeStore.Proofs.Lock.Section

/-!
# Exclusion and the preference of writers

A run of the monitor is any order of sections, taken by any number of threads; all that is asked is
that a thread which waits inside an acquisition does not enter another one.  Its history lists the
sections with what they led to, and says who is `Inside` an acquisition.

`Accounted` ties a history to the counters of the lock: whoever was granted a side and has not given
it back holds it, a writer holds alone, and the threads inside an acquisition are those who wait.
Every section keeps that (`Accounted.step`), so it holds after every run (`Run.accounted`).

* `Run.safety`: what the counters count, exclusion, the preference of writers, and releases of a
  side that nobody holds.
-/

namespace TreeStore.Lock

/-! ### Histories -/

/-- The thread that takes a section; a release is open to everybody. -/
def Move.thread? : Move → Option Nat
  | enter id _ | wake id => some id
  | release _ => none

/-- The sections that were taken and what they led to, the latest at the end. -/
abbrev History := List (Move × Outcome)

namespace History

variable {h : History} {id : Nat} {side : Side}

/-- How often a side was granted. -/
def grants (h : History) (side : Side) : Nat := h.countP (·.2 = .granted side)

/-- How often a side was given back. -/
def releases (h : History) (side : Side) : Nat := h.countP (·.2 = .released side)

/-- The section granted a side to the thread. -/
def Grants (id : Nat) (e : Move × Outcome) : Prop :=
  e.1.thread? = some id ∧ ∃ side, e.2 = .granted side

/-- The thread has entered for a side and was not granted it since. -/
def Inside (h : History) (id : Nat) (side : Side) : Prop :=
  ∃ before o after, h = before ++ (.enter id side, o) :: after ∧
    ∀ e ∈ (.enter id side, o) :: after, ¬ Grants id e

theorem grants_concat (h : History) (e : Move × Outcome) (side : Side) :
    grants (h ++ [e]) side = h.grants side + if e.2 = .granted side then 1 else 0 := by
  simp [grants, List.countP_append, List.countP_singleton]

theorem releases_concat (h : History) (e : Move × Outcome) (side : Side) :
    releases (h ++ [e]) side = h.releases side + if e.2 = .released side then 1 else 0 := by
  simp [releases, List.countP_append, List.countP_singleton]

theorem not_inside_nil : ¬ Inside [] id side := by
  rintro ⟨before, o, after, h, -⟩
  simp at h

theorem inside_concat {e : Move × Outcome} :
    Inside (h ++ [e]) id side ↔ (h.Inside id side ∨ e.1 = .enter id side) ∧ ¬ Grants id e := by
  constructor
  · rintro ⟨before, o, after, heq, hno⟩
    induction after using List.reverseRecOn with
    | nil =>
      obtain ⟨-, he⟩ := List.append_inj' heq rfl
      obtain rfl : e = (.enter id side, o) := by simpa using he
      exact ⟨Or.inr rfl, hno _ (List.mem_singleton_self _)⟩
    | append_singleton after last _ =>
      rw [← List.cons_append, ← List.append_assoc] at heq
      obtain ⟨hh, he⟩ := List.append_inj' heq rfl
      obtain rfl : e = last := by simpa using he
      refine ⟨Or.inl ⟨before, o, after, hh, fun e' he' => hno e' ?_⟩, hno e (by simp)⟩
      rw [← List.cons_append]
      exact List.mem_append_left _ he'
  · rintro ⟨⟨before, o, after, rfl, hno⟩ | he, hlast⟩
    · refine ⟨before, o, after ++ [e], by simp, fun e' he' => ?_⟩
      rw [← List.cons_append, List.mem_append, List.mem_singleton] at he'
      rcases he' with he' | rfl
      · exact hno e' he'
      · exact hlast
    · refine ⟨h, e.2, [], by rw [← he], fun e' he' => ?_⟩
      rw [List.mem_singleton, ← he] at he'
      rw [he']
      exact hlast

/-- Who is inside stays inside until it is granted the side. -/
theorem Inside.append (hin : h.Inside id side) {later : History}
    (hno : ∀ e ∈ later, ¬ Grants id e) : Inside (h ++ later) id side := by
  obtain ⟨before, o, after, rfl, hold⟩ := hin
  refine ⟨before, o, after ++ later, by simp, fun e he => ?_⟩
  rw [← List.cons_append, List.mem_append] at he
  rcases he with he | he
  · exact hold e he
  · exact hno e he

end History

namespace Monitor

open History

/-- A thread that waits does not enter again; all other sections are open at any time. -/
def Admits (m : Monitor) : Move → Prop
  | .enter id _ => ∀ w ∈ m.waiters, w.id ≠ id
  | _ => True

instance (m : Monitor) (move : Move) : Decidable (m.Admits move) :=
  match move with
  | .enter id _ => inferInstanceAs (Decidable (∀ w ∈ m.waiters, w.id ≠ id))
  | .wake _ | .release _ => isTrue trivial

/-- What may have happened on a monitor that was new at first. -/
inductive Run : History → Monitor → Prop where
  | start : Run [] {}
  | next {h : History} {m : Monitor} (run : Run h m) (move : Move) (admits : m.Admits move) :
      Run (h ++ [(move, (m.step move).1)]) (m.step move).2

variable {h later : History} {m m' : Monitor} {move : Move} {o : Outcome} {id : Nat} {side : Side}

/-- The threads that wait, with the sides that they wait for. -/
def queue (ws : List Waiter) : List (Nat × Side) := ws.map fun w => (w.id, w.side)

theorem mem_queue {w : Waiter} (hw : w ∈ m.waiters) : (w.id, w.side) ∈ queue m.waiters :=
  List.mem_map_of_mem hw

theorem map_id_queue (ws : List Waiter) : (queue ws).map (·.1) = ws.map (·.id) := by
  simp [queue]

theorem queue_concat (ws : List Waiter) (w : Waiter) :
    queue (ws ++ [w]) = queue ws ++ [(w.id, w.side)] := by
  simp [queue]

theorem queue_notifyAll (ws : List Waiter) : queue (notifyAll ws) = queue ws := by
  simp [queue, notifyAll]

/-- Taking one out of those who wait. -/
theorem countP_filter_ne {ws : List (Nat × Side)} (hd : (ws.map (·.1)).Nodup) {e : Nat × Side}
    (he : e ∈ ws) (p : Nat × Side → Bool) :
    ws.countP p = (ws.filter (·.1 ≠ e.1)).countP p + if p e then 1 else 0 := by
  induction ws with
  | nil => cases he
  | cons x xs ih =>
    rw [List.map_cons, List.nodup_cons] at hd
    obtain ⟨hx, hxs⟩ := hd
    rcases List.mem_cons.mp he with rfl | he
    · have hkeep : xs.filter (·.1 ≠ e.1) = xs := by
        rw [List.filter_eq_self]
        intro y hy
        simp only [decide_eq_true_eq]
        exact fun heq => hx (heq ▸ List.mem_map_of_mem hy)
      rw [List.filter_cons_of_neg (by simp), hkeep, List.countP_cons]
    · have hne : x.1 ≠ e.1 := fun heq => hx (heq ▸ List.mem_map_of_mem he)
      rw [List.filter_cons_of_pos (by simpa using hne), List.countP_cons, List.countP_cons,
        ih hxs he]
      omega

theorem queue_asleepAgain (m : Monitor) (id : Nat) :
    queue (m.asleepAgain id) = queue m.waiters := by
  simp only [queue, asleepAgain, List.map_map]
  refine List.map_congr_left fun v _ => ?_
  simp only [Function.comp_apply]
  split_ifs <;> rfl

theorem queue_afterRelease (m : Monitor) (side : Side) :
    queue (m.afterRelease side) = queue m.waiters := by
  unfold afterRelease
  split_ifs
  · exact queue_notifyAll _
  · rfl

theorem queue_others (m : Monitor) (id : Nat) :
    queue (m.others id) = (queue m.waiters).filter (·.1 ≠ id) := by
  simp [queue, others, List.filter_map, Function.comp_def]

/-! ### What the counters count -/

/-- The lock and those who wait are what a history leads to. -/
structure Accounted (h : History) (m : Monitor) : Prop where
  /-- A side is held as often as it was granted and not given back. -/
  holders : ∀ side, h.grants side = h.releases side + m.lock.holders side
  exclusive : m.lock.Exclusive
  /-- No thread waits twice. -/
  distinct : ((queue m.waiters).map (·.1)).Nodup
  /-- Those who wait are the threads inside an acquisition. -/
  inside : ∀ id side, (id, side) ∈ queue m.waiters ↔ h.Inside id side
  /-- The writers among them are counted. -/
  waiting : m.lock.writersWaiting = (queue m.waiters).countP (·.2 = .write)

section Step

variable (acc : Accounted h m)
include acc

theorem Accounted.holders_step (hc : Change m move o m') (side : Side) :
    grants (h ++ [(move, o)]) side = releases (h ++ [(move, o)]) side + m'.lock.holders side := by
  have hold := acc.holders side
  rw [grants_concat, releases_concat]
  cases hc with
  | enter id s hw =>
    simp only [Outcome.granted.injEq, reduceCtorEq, if_false, holders_grant hw]
    omega
  | sleep id s hw => simpa using hold
  | nobody id => simpa using hold
  | wake w hm hn hw =>
    simp only [Outcome.granted.injEq, reduceCtorEq, if_false, holders_grantWaiter,
      holders_grant hw]
    omega
  | sleepAgain w hm hn hw => simpa using hold
  | release s hh =>
    have hback := holders_giveBack hh side
    simp only [Outcome.released.injEq, reduceCtorEq, if_false]
    omega
  | unmatched s hh => simpa using hold

theorem Accounted.exclusive_step (hc : Change m move o m') : m'.lock.Exclusive := by
  have hex := acc.exclusive
  cases hc with
  | enter id s hw => exact exclusive_grant hw
  | sleep id s hw => simpa [Exclusive] using hex
  | nobody id => exact hex
  | wake w hm hn hw => simpa [Exclusive] using exclusive_grant hw
  | sleepAgain w hm hn hw => exact hex
  | release s hh => exact hex.giveBack hh
  | unmatched s hh => exact hex

theorem Accounted.distinct_step (admits : m.Admits move) (hc : Change m move o m') :
    ((queue m'.waiters).map (·.1)).Nodup := by
  have hd := acc.distinct
  cases hc with
  | enter id s hw => exact hd
  | sleep id s hw =>
    rw [queue_concat, List.map_append, List.nodup_append]
    refine ⟨hd, List.nodup_singleton _, ?_⟩
    rintro n hn n' hn' rfl
    obtain rfl : n = id := by simpa using hn'
    rw [map_id_queue] at hn
    obtain ⟨w, hw, hid⟩ := List.mem_map.mp hn
    exact admits w hw hid
  | nobody id => exact hd
  | wake w hm hn hw =>
    rw [queue_others]
    exact hd.sublist (List.filter_sublist.map _)
  | sleepAgain w hm hn hw =>
    rw [queue_asleepAgain]
    exact hd
  | release s hh =>
    rw [queue_afterRelease]
    exact hd
  | unmatched s hh => exact hd

theorem Accounted.inside_step (admits : m.Admits move) (hc : Change m move o m') (id : Nat)
    (side : Side) :
    (id, side) ∈ queue m'.waiters ↔ Inside (h ++ [(move, o)]) id side := by
  rw [inside_concat, ← acc.inside id side]
  cases hc with
  | enter n s hw =>
    -- a thread that is granted the side on entry has been outside, and is outside again
    by_cases hn : n = id
    · subst hn
      have hout : (n, side) ∉ queue m.waiters := fun hmem => by
        obtain ⟨w, hw, heq⟩ := List.mem_map.mp hmem
        exact admits w hw (Prod.mk.inj heq).1
      simp [hout, Grants, Move.thread?]
    · simp [Grants, Move.thread?, hn]
  | sleep n s hw => simp [queue_concat, Grants, eq_comm (a := id), eq_comm (a := side)]
  | nobody n => simp [Grants]
  | wake w hm hn hw =>
    have hne : id ≠ w.id ↔ w.id ≠ id := ne_comm
    simp [queue_others, Grants, Move.thread?, hne]
  | sleepAgain w hm hn hw => simp [queue_asleepAgain, Grants]
  | release s hh => simp [queue_afterRelease, Grants]
  | unmatched s hh => simp [Grants]

theorem Accounted.waiting_step (hc : Change m move o m') :
    m'.lock.writersWaiting = (queue m'.waiters).countP (·.2 = .write) := by
  have hwait := acc.waiting
  cases hc with
  | enter n s hw => simpa using hwait
  | sleep n s hw =>
    rw [writersWaiting_announce, queue_concat, List.countP_append, List.countP_singleton, hwait]
    simp
  | nobody n => exact hwait
  | wake w hm hn hw =>
    have hcount := countP_filter_ne acc.distinct (mem_queue hm) (·.2 = .write)
    simp only [decide_eq_true_eq] at hcount
    rw [queue_others, writersWaiting_grantWaiter, hwait, hcount, Nat.add_sub_cancel]
  | sleepAgain w hm hn hw =>
    rw [queue_asleepAgain]
    exact hwait
  | release s hh =>
    rw [queue_afterRelease, writersWaiting_giveBack]
    exact hwait
  | unmatched s hh => exact hwait

theorem Accounted.step (admits : m.Admits move) (hc : Change m move o m') :
    Accounted (h ++ [(move, o)]) m' where
  holders := acc.holders_step hc
  exclusive := acc.exclusive_step hc
  distinct := acc.distinct_step admits hc
  inside := acc.inside_step admits hc
  waiting := acc.waiting_step hc

theorem Accounted.ncard_inside :
    {id | h.Inside id .write}.ncard = m.lock.writersWaiting := by
  have hset : {id | h.Inside id .write} =
      (((queue m.waiters).filter (·.2 = .write)).map (·.1)).toFinset := by
    ext id
    simp [← acc.inside id .write]
  have hnodup := acc.distinct.sublist ((List.filter_sublist (p := (·.2 = .write))).map _)
  rw [hset, Set.ncard_coe_finset, List.toFinset_card_of_nodup hnodup, List.length_map,
    acc.waiting, List.countP_eq_length_filter]

/-- No reader is granted the lock while a thread is inside an acquisition of the write side. -/
theorem Accounted.not_inside_of_granted_read (hc : Change m move (.granted .read) m') (id : Nat) :
    ¬ h.Inside id .write := by
  intro hin
  have hnone := none_waiting_of_not_mustWait hc.not_mustWait
  rw [acc.waiting, List.countP_eq_zero] at hnone
  exact hnone _ ((acc.inside id .write).mpr hin) (by simp)

end Step

/-! ### Runs -/

theorem Run.accounted (run : Run h m) : Accounted h m := by
  induction run with
  | start =>
    refine ⟨fun side => ?_, Or.inl rfl, List.nodup_nil, fun id side => ?_, rfl⟩
    · cases side <;> rfl
    · exact ⟨fun hmem => absurd hmem List.not_mem_nil, fun hin => absurd hin not_inside_nil⟩
  | next run move admits ih => exact ih.step admits (change_step _ move)

/-- A run is a shorter run and one more section. -/
theorem Run.of_concat {e : Move × Outcome} (run : Run (h ++ [e]) m') :
    ∃ m, Run h m ∧ m.Admits e.1 ∧ e.2 = (m.step e.1).1 ∧ m' = (m.step e.1).2 := by
  generalize hh : h ++ [e] = all at run
  cases run with
  | start => simp at hh
  | next run move admits =>
    obtain ⟨rfl, he⟩ := List.append_inj' hh rfl
    obtain rfl : e = _ := by simpa using he
    exact ⟨_, run, admits, rfl, rfl⟩

/-- As long as a writer is inside an acquisition, no reader is granted the lock. -/
theorem Run.no_reader_granted (run : Run (h ++ later) m') (hin : h.Inside id .write)
    (hno : ∀ e ∈ later, ¬ Grants id e) : ∀ e ∈ later, e.2 ≠ .granted .read := by
  induction later using List.reverseRecOn generalizing m' with
  | nil => exact fun e he => absurd he List.not_mem_nil
  | append_singleton later last ih =>
    rw [← List.append_assoc] at run
    obtain ⟨m, first, -, ho, -⟩ := run.of_concat
    have hbefore : ∀ e ∈ later, ¬ Grants id e := fun e he => hno e (List.mem_append_left _ he)
    intro e he heq
    rcases List.mem_append.mp he with he | he
    · exact ih first hbefore e he heq
    · obtain rfl := List.mem_singleton.mp he
      have hc := change_step m e.1
      rw [← ho, heq] at hc
      exact first.accounted.not_inside_of_granted_read hc id (hin.append hbefore)

/-- After any sections of any threads, in any order: the readers are the acquisitions of the read
side that were granted and not given back; a writer holds if and only if one more acquisition of the
write side was granted than given back; a writer holds alone; and the writers that are counted as
waiting are the threads inside an acquisition of the write side.  A reader is granted the lock only
where no writer holds it and none waits, so that none is while a given writer waits.  A release is
refused if and only if nobody holds the side, and then it changes nothing. -/
theorem Run.safety (run : Run h m) :
    (h.releases .read ≤ h.grants .read ∧ m.lock.readers = h.grants .read - h.releases .read) ∧
    (m.lock.writer = true ↔ (h.grants .write : Int) - h.releases .write = 1) ∧
    ¬ (0 < m.lock.readers ∧ m.lock.writer = true) ∧
    m.lock.writersWaiting = {id | h.Inside id .write}.ncard ∧
    (∀ move, (m.step move).1 = .granted .read →
      m.lock.writer = false ∧ m.lock.writersWaiting = 0) ∧
    (∀ id later m', h.Inside id .write → Run (h ++ later) m' → (∀ e ∈ later, ¬ Grants id e) →
      ∀ e ∈ later, e.2 ≠ .granted .read) ∧
    ∀ side, ((m.step (.release side)).1 = .unmatched side ↔ m.lock.holds side = false) ∧
      (m.lock.holds side = false → m.step (.release side) = (.unmatched side, m)) := by
  have acc := run.accounted
  have hr := acc.holders .read
  have hw := acc.holders .write
  refine ⟨⟨by omega, ?_⟩, ?_, ?_, ?_, fun move hmove => ?_, ?_, fun side => ?_⟩
  · show m.lock.holders .read = _
    omega
  · rw [hw]
    cases h : m.lock.writer <;> simp [holders, h]
  · rintro ⟨hpos, hwriter⟩
    rcases acc.exclusive with hex | hex
    · simp [holders, hwriter] at hex
    · exact absurd hex (Nat.ne_of_gt hpos)
  · exact acc.ncard_inside.symm
  · have hc := change_step m move
    rw [hmove] at hc
    have hfree := no_writer_of_not_mustWait hc.not_mustWait
    exact ⟨Bool.toNat_eq_zero.mp hfree, none_waiting_of_not_mustWait hc.not_mustWait⟩
  · exact fun id later m' hin run' hno => run'.no_reader_granted hin hno
  · have hc := change_step m (.release side)
    generalize hstep : m.step (.release side) = e at hc
    obtain ⟨o, m'⟩ := e
    cases hc with
    | release _ hh => simp [hh]
    | unmatched _ hh => simp [hh]

/-- A reader that enters behind a waiting writer wakes first and sleeps again; then the writer is
granted the lock, and the reader still waits. -/
theorem safety_writer_first :
    ∃ h m, Run h m ∧ (h.grants .write : Int) - h.releases .write = 1 ∧
      m.lock.writersWaiting = {id | h.Inside id .write}.ncard ∧ h.Inside 2 .read ∧
      (m.step (.wake 2)).1 ≠ .granted .read := by
  have run := (((((Run.start.next (.enter 0 .read) (by decide)).next (.enter 1 .write)
    (by decide)).next (.enter 2 .read) (by decide)).next (.release .read) (by decide)).next
    (.wake 2) (by decide)).next (.wake 1) (by decide)
  obtain ⟨-, hwriter, -, hwaiting, hgrant, -, -⟩ := run.safety
  refine ⟨_, _, run, hwriter.mp (by decide), hwaiting, ?_, fun hg => ?_⟩
  · exact (run.accounted.inside 2 .read).mp (by decide)
  · exact absurd (hgrant _ hg).1 (by decide)

end Monitor

end TreeStore.Lock
