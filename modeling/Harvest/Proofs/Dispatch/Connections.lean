import Harvest.Proofs.Dispatch.Trail

/-! How many connections are open. A session has at most one, a worker no more than it may run
sessions, and all together no more than all workers may run. What the relays count is what the
sessions hold, so the count never falls short of it, and when all is over it is what it was. -/

namespace Harvest

def Deed.isOpening : Deed → Bool
  | opened => true
  | _ => false

def Deed.isRelease : Deed → Bool
  | released => true
  | _ => false

namespace Wire

variable {wire wire' : Wire} {deeds : List Deed}

/-- How many connections there are. -/
def count (wire : Wire) : Nat := if wire.isOpen then 1 else 0

theorem count_le_one (wire : Wire) : wire.count ≤ 1 := by
  cases wire <;> decide

theorem follow_cons_eq_some {deed : Deed} (h : wire.follow (deed :: deeds) = some wire') :
    ∃ mid, wire.after deed = some mid ∧ mid.follow deeds = some wire' := by
  rw [follow_cons] at h
  exact Option.bind_eq_some_iff.mp h

theorem follow_append_eq_some {more : List Deed} (h : wire.follow (deeds ++ more) = some wire') :
    ∃ mid, wire.follow deeds = some mid ∧ mid.follow more = some wire' := by
  rw [follow_append] at h
  exact Option.bind_eq_some_iff.mp h

/-- What is opened is released or still open. -/
theorem count_follow (h : wire.follow deeds = some wire') :
    deeds.countP Deed.isOpening + wire.count = deeds.countP Deed.isRelease + wire'.count := by
  induction deeds generalizing wire with
  | nil =>
    obtain rfl := Option.some.inj h
    rfl
  | cons deed rest ih =>
    obtain ⟨mid, ha, hrest⟩ := follow_cons_eq_some h
    have ih := ih hrest
    rw [List.countP_cons, List.countP_cons]
    have hone : (if deed.isOpening then 1 else 0) + wire.count =
        (if deed.isRelease then 1 else 0) + mid.count := by
      clear ih h hrest
      unfold after at ha
      split at ha <;> cases ha <;> rfl
    omega

theorem after_eq_up {deed : Deed} (h : wire.after deed = some up) :
    wire = up ∨ deed = .opened := by
  unfold after at h
  split at h <;> simp_all

/-- A connection that can be used was there before, or was opened meanwhile. -/
theorem opened_mem (h : wire.follow deeds = some up) (hw : wire ≠ up) : .opened ∈ deeds := by
  induction deeds generalizing wire with
  | nil => exact absurd (Option.some.inj h) hw
  | cons deed rest ih =>
    obtain ⟨mid, ha, hrest⟩ := follow_cons_eq_some h
    by_cases hm : mid = up
    · subst hm
      rcases after_eq_up ha with rfl | rfl
      · exact absurd rfl hw
      · exact List.mem_cons_self ..
    · exact List.mem_cons_of_mem _ (ih hrest hm)

/-- A connection that a query has failed on stays so until it is released. -/
theorem released_mem (h : spent.follow deeds = some wire') (hw : wire' ≠ spent) :
    .released ∈ deeds := by
  induction deeds with
  | nil => exact absurd (Option.some.inj h).symm hw
  | cons deed rest ih =>
    obtain ⟨mid, ha, hrest⟩ := follow_cons_eq_some h
    unfold after at ha
    split at ha <;> cases ha
    all_goals first
      | exact List.mem_cons_of_mem _ (ih hrest)
      | exact List.mem_cons_self ..
      | contradiction

theorem up_of_asked {w : Window} {answer : Except LinkFault Reply}
    (h : wire.after (.asked w answer) = some wire') : wire = up := by
  unfold after at h
  split at h <;> simp_all

end Wire

/-- Deeds of a session that has handled its connections well, and that holds one or none at
last. -/
structure Orderly (deeds : List Deed) (connected : Bool) : Prop where
  /-- At every moment at most one connection was open, and none was released twice. -/
  single : ∀ before after, deeds = before ++ after →
    before.countP Deed.isRelease ≤ before.countP Deed.isOpening ∧
      before.countP Deed.isOpening ≤ before.countP Deed.isRelease + 1
  /-- Whatever was opened was released, but for the one that is open. -/
  balance : deeds.countP Deed.isOpening =
    deeds.countP Deed.isRelease + if connected then 1 else 0
  /-- Queries are sent while a connection is open. -/
  asked : ∀ before w answer after, deeds = before ++ .asked w answer :: after →
    before.countP Deed.isOpening = before.countP Deed.isRelease + 1
  /-- After a query that failed the connection is released, and a new one opened, before another
  query. -/
  fresh : ∀ before w fault mid w' answer after,
    deeds = before ++ .asked w (.error fault) :: (mid ++ .asked w' answer :: after) →
      .released ∈ mid ∧ .opened ∈ mid

theorem Wire.orderly {deeds : List Deed} {wire : Wire} (h : Wire.down.follow deeds = some wire) :
    Orderly deeds wire.isOpen where
  single before after he := by
    rw [he] at h
    obtain ⟨mid, hbefore, -⟩ := follow_append_eq_some h
    have hcount := count_follow hbefore
    have hmid := mid.count_le_one
    have hdown : down.count = 0 := rfl
    omega
  balance := count_follow h
  asked before w answer after he := by
    rw [he] at h
    obtain ⟨mid, hbefore, h⟩ := follow_append_eq_some h
    obtain ⟨_, ha, -⟩ := follow_cons_eq_some h
    obtain rfl := up_of_asked ha
    exact count_follow hbefore
  fresh before w fault mid w' answer after he := by
    rw [he] at h
    obtain ⟨first, -, h⟩ := follow_append_eq_some h
    obtain ⟨second, ha, h⟩ := follow_cons_eq_some h
    obtain ⟨third, hmid, h⟩ := follow_append_eq_some h
    obtain ⟨_, hb, -⟩ := follow_cons_eq_some h
    obtain rfl := up_of_asked ha
    obtain rfl := up_of_asked hb
    obtain rfl := Option.some.inj ha
    exact ⟨released_mem hmid (by decide), opened_mem hmid (by decide)⟩

/-! ## What the relays count -/

/-- One for a connection to a relay that counts its connections. -/
def tally (counted connected : Bool) : Nat := if counted && connected then 1 else 0

namespace Session

variable {s : Session} {wire wire' : Wire} {deeds : List Deed}

/-- What is observed counts one more for a connection that is opened and one less for one that is
released, and one that is open is among those that are counted. -/
theorem live_follow (h : wire.follow deeds = some wire') (counted : Bool) (o : Observed)
    (hl : tally counted wire.isOpen ≤ o.live) :
    (deeds.foldl (Observed.after s counted) o).live + tally counted wire.isOpen =
      o.live + tally counted wire'.isOpen := by
  induction deeds generalizing wire o with
  | nil =>
    obtain rfl := Option.some.inj h
    rfl
  | cons deed rest ih =>
    obtain ⟨mid, ha, hrest⟩ := Wire.follow_cons_eq_some h
    have hone : (Observed.after s counted o deed).live + tally counted wire.isOpen =
        o.live + tally counted mid.isOpen := by
      clear ih h hrest
      unfold Wire.after at ha
      split at ha <;> cases ha <;> cases counted <;>
        simp_all [Observed.after, tally, Wire.isOpen]
    have ih := ih hrest (Observed.after s counted o deed) (by omega)
    rw [List.foldl_cons]
    omega

theorem peak_of_not_opened (h : .opened ∉ deeds) (counted : Bool) (o : Observed) :
    (deeds.foldl (Observed.after s counted) o).peak = o.peak := by
  induction deeds generalizing o with
  | nil => rfl
  | cons deed rest ih =>
    rw [List.foldl_cons, ih fun hm => h (List.mem_cons_of_mem _ hm)]
    cases deed <;> first | rfl | (simp only [Observed.after]; split <;> rfl) | simp_all

/-- A move that opens a connection does nothing else. -/
theorem deeds_of_opened {next : Session} (h : .opened ∈ s.deeds next) :
    s.deeds next = [.opened] := by
  rw [deeds] at h ⊢
  cases hc : s.connected <;> cases hn : next.stage <;> simp_all

/-- What a move changes in what is counted. -/
theorem Does.live {world : World} {next : World × Session} (h : Does wire world s next)
    (hon : s.On wire)
    (hl : tally (world.network.isCounted s.relay) s.connected ≤ world.network.live) :
    next.1.network.live + tally (world.network.isCounted s.relay) s.connected =
        world.network.live + tally (world.network.isCounted s.relay) next.2.connected ∧
      next.1.network.peak ≤ max world.network.peak next.1.network.live := by
  obtain ⟨⟨wire', hw, hon'⟩, hshows⟩ := h
  have hlive := live_follow (s := s) hw (world.network.isCounted s.relay) world.observed
    (by rw [hon.1]; exact hl)
  have hlive' := congrArg Observed.live hshows.observed
  have hpeak' := congrArg Observed.peak hshows.observed
  rw [← hlive', hon.1, hon'.1] at hlive
  refine ⟨hlive, ?_⟩
  by_cases ho : .opened ∈ s.deeds next.2
  · rw [deeds_of_opened ho] at hlive' hpeak'
    simp only [List.foldl_cons, List.foldl_nil, Observed.after, World.observed] at hlive' hpeak'
    cases hc : world.network.isCounted s.relay with
    | true =>
      simp only [hc, if_true] at hlive' hpeak'
      omega
    | false =>
      simp only [hc, Bool.false_eq_true, if_false] at hpeak'
      omega
  · rw [peak_of_not_opened ho] at hpeak'
    have hpeak' : next.1.network.peak = world.network.peak := hpeak'
    omega

end Session

namespace Task

/-- Its session has an open connection. -/
def isConnected (t : Task) : Bool :=
  match t.progress with
  | .running s => s.connected
  | _ => false

def Act.deed? : Act → Option Deed
  | did deed => some deed
  | ended _ => none

theorem filterMap_did (deeds : List Deed) : (deeds.map Act.did).filterMap Act.deed? = deeds := by
  rw [List.filterMap_map]
  exact List.filterMap_some

theorem ended_deed? (report : Option Report) : [Act.ended report].filterMap Act.deed? = [] := rfl

variable {c : Control} {wall : UInt64} {since : Nat} {first t : Task}

theorem isRunning_of_isConnected (h : t.isConnected = true) : t.isRunning = true := by
  cases hp : t.progress with
  | running s => simp only [isRunning, hp]
  | staggering | queued | ended => simp only [isConnected, hp, Bool.false_eq_true] at h

/-- The connection of a task that had no session: it is that of its session, and there is none when
it has no session any more. -/
theorem Told.wire {done : List Act} {progress : Progress}
    (h : Told c wall since first done progress) (hf : ∀ s, first.progress ≠ .running s) :
    ∃ wire, Wire.down.follow (done.filterMap Act.deed?) = some wire ∧
      (∀ s, progress = .running s → s.isOver = false ∧ s.On wire ∧ s.job = first.job) ∧
      ((∀ s, progress ≠ .running s) → wire = .down) := by
  have hbegin {s₀ s : Session} {deeds : List Deed} (hb : Begins c wall since first s₀)
      (hp : Session.Path c s₀ deeds s) :
      ∃ wire, Wire.down.follow deeds = some wire ∧ s.On wire ∧ s.job = first.job := by
    cases hb with
    | had h => exact absurd h (hf _)
    | begun =>
      obtain ⟨wire, hw, hon⟩ := hp.on (Session.on_start _ _ _)
      exact ⟨wire, hw, hon, hp.job⟩
  cases h with
  | waiting _ hp =>
    refine ⟨.down, rfl, ?_, fun _ => rfl⟩
    rintro s rfl
    cases hp
  | running hb hp ho =>
    obtain ⟨wire, hw, hon, hj⟩ := hbegin hb hp
    refine ⟨wire, by rw [filterMap_did]; exact hw, ?_, fun hn => absurd rfl (hn _)⟩
    rintro s hs
    obtain rfl := Progress.running.inj hs
    exact ⟨ho, hon, hj⟩
  | past | dropped => exact ⟨.down, rfl, (fun s hs => by cases hs), fun _ => rfl⟩
  | ran hb hp hr =>
    obtain ⟨wire, hw, hon, -⟩ := hbegin hb hp
    obtain rfl := hon.of_isOver (Session.isOver_of_report? hr)
    refine ⟨.down, ?_, (fun s hs => by cases hs), fun _ => rfl⟩
    rw [List.filterMap_append, filterMap_did, ended_deed?, List.append_nil]
    exact hw
  | crashed hb hp ho =>
    obtain ⟨wire, hw, hon, -⟩ := hbegin hb hp
    obtain rfl := hon.of_isOver ho
    refine ⟨.down, ?_, (fun s hs => by cases hs), fun _ => rfl⟩
    rw [List.filterMap_append, filterMap_did, ended_deed?, List.append_nil]
    exact hw

/-- What a move of a task changes in what the relays count. -/
theorem live_step (t : Task)
    (ht : ∀ s, t.progress = .running s → s.isOver = false ∧ (∃ wire, s.On wire) ∧ s.job = t.job)
    (c : Control) (wall : UInt64) (now : Nat) (world : World)
    (hl : tally (world.network.isCounted t.job.relay.id) t.isConnected ≤ world.network.live) :
    let next := t.step c wall now world
    let counted := world.network.isCounted t.job.relay.id
    next.1.network.live + tally counted t.isConnected =
        world.network.live + tally counted next.2.1.isConnected ∧
      next.1.network.peak ≤ max world.network.peak next.1.network.live ∧
      ∀ relay, next.1.network.isCounted relay = world.network.isCounted relay := by
  obtain ⟨worker, job, progress⟩ := t
  cases progress with
  | running s =>
    obtain ⟨ho, ⟨wire, hon⟩, hj⟩ := ht s rfl
    have hj : s.job = job := hj
    subst hj
    have hdoes := Session.does_step hon ho c world
    obtain ⟨hlive, hpeak⟩ := hdoes.live hon hl
    obtain ⟨⟨wire', -, hon'⟩, -⟩ := hdoes
    have hnext : (Task.step ⟨worker, s.job, .running s⟩ c wall now world).2.1.isConnected =
        (s.step c world).2.connected := by
      simp only [step, follow]
      cases hover : (s.step c world).2.isOver with
      | false => rfl
      | true =>
        -- who is over has released its connection
        obtain rfl := hon'.of_isOver hover
        rw [if_pos rfl, ← hon'.1]
        split <;> rfl
    refine ⟨?_, hpeak, fun relay => (Session.leads_step s world c).1.isCounted relay⟩
    rw [hnext]
    exact hlive
  | staggering | queued =>
    simp only [step, drop]
    split <;> exact ⟨rfl, Nat.le_max_left .., by simp⟩
  | ended => exact ⟨rfl, Nat.le_max_left .., fun _ => rfl⟩

end Task

namespace Dispatch

/-- What the session of the task at a place has done. -/
def deedsAt (place : Nat) (acts : List Act) : List Deed :=
  (doneAt place acts).filterMap Task.Act.deed?

/-- The open connections of a worker. -/
def connections (d : Dispatch) (worker : Nat) : Nat :=
  d.tasks.countP fun t => t.worker == worker && t.isConnected

def allConnections (d : Dispatch) : Nat := d.tasks.countP Task.isConnected

/-- The open connections to relays that count them. -/
def counted (d : Dispatch) : Nat :=
  d.tasks.countP fun t => d.world.network.isCounted t.job.relay.id && t.isConnected

/-- If every key occurs at most `k` times and there are `n` of them, there are at most `n * k`
elements. -/
theorem countP_le_mul {items : List α} {p : α → Bool} (key : α → Nat) {n k : Nat}
    (hk : ∀ i, items.countP (fun a => key a == i && p a) ≤ k) (hn : ∀ a ∈ items, key a < n) :
    items.countP p ≤ n * k := by
  induction n generalizing items with
  | zero =>
    refine Nat.le_trans (Nat.le_of_eq ?_) (Nat.zero_le _)
    exact List.countP_eq_zero.mpr fun a ha => absurd (hn a ha) (Nat.not_lt_zero _)
  | succ n ih =>
    have hrest : (items.filter fun a => !(key a == n)).countP p ≤ n * k := by
      refine ih (fun i => Nat.le_trans ?_ (hk i)) fun a ha => ?_
      · rw [List.countP_filter]
        exact List.countP_mono_left fun a _ h => (Bool.and_eq_true_iff.mp h).1
      · obtain ⟨ha, hne⟩ := List.mem_filter.mp ha
        have hlt := hn a ha
        have hne : key a ≠ n := by simpa using hne
        omega
    have hlast : (items.filter fun a => key a == n).countP p ≤ k := by
      refine Nat.le_trans (Nat.le_of_eq ?_) (hk n)
      rw [List.countP_filter]
      exact List.countP_congr fun a _ => by rw [Bool.and_comm]
    rw [List.countP_eq_countP_filter_add items p fun a => key a == n, Nat.succ_mul]
    omega

theorem counted_le (d : Dispatch) : d.counted ≤ d.allConnections :=
  List.countP_mono_left fun _ _ ht => (Bool.and_eq_true_iff.mp ht).2

theorem tally_le_counted {d : Dispatch} {place : Nat} {task : Task}
    (ht : d.tasks[place]? = some task) :
    tally (d.world.network.isCounted task.job.relay.id) task.isConnected ≤ d.counted := by
  rw [tally]
  split
  · rename_i hp
    exact List.countP_pos_iff.mpr ⟨task, List.mem_of_getElem? ht, hp⟩
  · exact Nat.zero_le _

/-- A move changes what the relays count by as much as what the sessions hold. -/
theorem live_moved {d : Dispatch} {place : Nat} {task : Task} (ht : d.tasks[place]? = some task)
    (hrun : ∀ s, task.progress = .running s →
      s.isOver = false ∧ (∃ wire, s.On wire) ∧ s.job = task.job)
    (now : Nat) (hl : d.counted ≤ d.world.network.live) :
    let next := d.moved place task now
    next.world.network.live + d.counted = d.world.network.live + next.counted ∧
      next.world.network.peak ≤ max d.world.network.peak next.world.network.live ∧
      ∀ relay, next.world.network.isCounted relay = d.world.network.isCounted relay := by
  intro next
  obtain ⟨hstep, hpeak, hsame⟩ := task.live_step hrun d.control d.wall now d.world
    (Nat.le_trans (tally_le_counted ht) hl)
  have hnetwork : next.world.network = (task.step d.control d.wall now d.world).1.network :=
    network_release ..
  have hnext : next.counted = (d.tasks.set place
      (task.step d.control d.wall now d.world).2.1).countP
        fun t => d.world.network.isCounted t.job.relay.id && t.isConnected := by
    rw [counted, tasks_moved, hnetwork]
    exact List.countP_congr fun t _ => by rw [hsame]
  have hcount := countP_set_add (b := (task.step d.control d.wall now d.world).2.1) ht
    fun t => d.world.network.isCounted t.job.relay.id && t.isConnected
  rw [(task.job_step d.control d.wall now d.world).1] at hcount
  rw [hnetwork, hnext]
  refine ⟨?_, hpeak, hsame⟩
  simp only [tally, counted] at hstep ⊢
  omega

namespace Trail

variable {first d : Dispatch} {acts : List Act}

theorem wireAt (h : Trail first acts d) (hf : first.Regular)
    (hn : ∀ t ∈ first.tasks, ∀ s, t.progress ≠ .running s) {place : Nat} {t : Task}
    (ht : d.tasks[place]? = some t) :
    ∃ wire, Wire.down.follow (deedsAt place acts) = some wire ∧ wire.isOpen = t.isConnected ∧
      ∀ s, t.progress = .running s → s.isOver = false ∧ (∃ wire, s.On wire) ∧ s.job = t.job := by
  obtain ⟨t₀, hp, hj, -, htold⟩ := h.toldAt hf ht
  obtain ⟨wire, hw, hrun, hrest⟩ := htold.wire (hn t₀ (List.mem_of_getElem? hp))
  refine ⟨wire, hw, ?_, ?_⟩
  · rw [Task.isConnected]
    split
    · rename_i s hs
      exact (hrun s hs).2.1.1
    · rename_i hne
      rw [hrest hne]
      rfl
  · intro s hs
    obtain ⟨ho, hon, hjob⟩ := hrun s hs
    exact ⟨ho, ⟨wire, hon⟩, hjob.trans hj.symm⟩

/-- **No worker has more connections open than it may run sessions.** -/
theorem connections_le (h : Trail first acts d) (hf : first.Regular) (worker : Nat) :
    d.connections worker ≤ first.limit := by
  rw [← h.keeps.1]
  refine Nat.le_trans (List.countP_mono_left fun t _ ht => ?_) ((h.regular hf).crew worker)
  obtain ⟨hw, hc⟩ := Bool.and_eq_true_iff.mp ht
  rw [hw, Task.isRunning_of_isConnected hc]
  rfl

theorem allConnections_le (h : Trail first acts d) (hf : first.Regular) {n : Nat}
    (hw : ∀ t ∈ first.tasks, t.worker < n) : d.allConnections ≤ n * first.limit := by
  refine countP_le_mul Task.worker (h.connections_le hf) fun t ht => ?_
  obtain ⟨place, hp⟩ := List.mem_iff_getElem?.mp ht
  obtain ⟨t₀, hp₀, -, hworker, -⟩ := h.toldAt hf hp
  rw [hworker]
  exact hw t₀ (List.mem_of_getElem? hp₀)

/-- **What the relays count is what the sessions hold.** -/
theorem live (h : Trail first acts d) (hf : first.Regular)
    (hn : ∀ t ∈ first.tasks, ∀ s, t.progress ≠ .running s) {n : Nat}
    (hw : ∀ t ∈ first.tasks, t.worker < n) :
    d.world.network.live = first.world.network.live + d.counted ∧
      d.world.network.peak ≤
        max first.world.network.peak (first.world.network.live + n * first.limit) ∧
      ∀ relay, d.world.network.isCounted relay = first.world.network.isCounted relay := by
  induction h with
  | start =>
    have hnone : first.counted = 0 := List.countP_eq_zero.mpr fun t ht => by
      have hc : t.isConnected = false := by
        rw [Task.isConnected]
        split
        · exact absurd (by assumption) (hn t ht _)
        · rfl
      simp [hc]
    exact ⟨by rw [hnone]; rfl, Nat.le_max_left .., fun _ => rfl⟩
  | move h ht hd ih =>
    rename_i acts d place task now
    obtain ⟨hlive, hpeak, hsame⟩ := ih
    obtain ⟨-, -, -, hrun⟩ := h.wireAt hf hn ht
    obtain ⟨hnext, hnextPeak, hnextSame⟩ :=
      live_moved ht hrun now (by rw [hlive]; exact Nat.le_add_left ..)
    have hall : (d.moved place task now).counted ≤ n * first.limit :=
      Nat.le_trans (counted_le _) ((h.move ht hd).allConnections_le hf hw)
    exact ⟨by omega, by omega, fun relay => (hnextSame relay).trans (hsame relay)⟩

end Trail

/-! ## From the beginning to the end -/

/-- A connection that is released is closed, and then dropped, which closes it again. -/
theorem disconnect_eq_close (s : Session) (world : World) :
    let connection : Connection := { relay := s.relay, isOpen := s.connected }
    let (network, closed) := connection.close world.network
    (s.disconnect world).1.network = (closed.close network).1 := by
  cases hc : s.connected <;> simp [Session.disconnect, Connection.close, hc, World.closed]

theorem worker_lt_of_mem_begin {jobs : List Job} {workers limit : Nat} {pause : Nat → Nat → Nat}
    {refused : List Nat} {control : Control} {wall : UInt64} {now : Nat} {world : World} {t : Task}
    (h : t ∈ (begin_ jobs workers limit pause refused control wall now world).1.tasks) :
    t.worker < max 1 workers := by
  simp only [begin_, List.mem_flatMap, List.mem_map, Prod.exists] at h
  obtain ⟨shard, worker, hs, job, place, -, rfl⟩ := h
  have hlt := List.snd_lt_of_mem_zipIdx hs
  simp only [Shard.deal, List.length_map, List.length_range] at hlt
  dsimp only
  omega

/-- **Connections are bounded and handled well.** Whatever the relays do, whenever a stop is
requested and whoever moves next: at every moment each session has handled its connections well, no
worker has more than `limit` of them open and all together no more than `workers * limit`, the
relays count just those that are open, and when all is over none is. -/
theorem connections_bounded {jobs : List Job} {workers limit : Nat} {pause : Nat → Nat → Nat}
    {refused : List Nat} {control : Control} {wall : UInt64} {now : Nat} {world : World}
    {acts : List Act} {d : Dispatch}
    (h : Trail (begin_ jobs workers limit pause refused control wall now world).1 acts d) :
    (∀ place t, d.tasks[place]? = some t → Orderly (deedsAt place acts) t.isConnected) ∧
      (∀ worker, d.connections worker ≤ max 1 limit) ∧
      d.allConnections ≤ max 1 workers * max 1 limit ∧
      d.world.network.live = world.network.live + d.counted ∧
      d.world.network.peak ≤
        max world.network.peak (world.network.live + max 1 workers * max 1 limit) ∧
      (d.step? = none → d.allConnections = 0 ∧ d.world.network.live = world.network.live) ∧
      ∀ (s : Session) (world : World),
        let connection : Connection := { relay := s.relay, isOpen := s.connected }
        let (network, closed) := connection.close world.network
        (s.disconnect world).1.network = (closed.close network).1 := by
  have hf : (begin_ jobs workers limit pause refused control wall now world).1.Regular :=
    regular_begin
  have hn : ∀ t ∈ (begin_ jobs workers limit pause refused control wall now world).1.tasks,
      ∀ s, t.progress ≠ .running s := fun t ht => (mem_tasks_begin ht).2
  obtain ⟨hlive, hpeak, -⟩ := h.live hf hn fun t ht => worker_lt_of_mem_begin ht
  have hlive : d.world.network.live = world.network.live + d.counted := hlive
  refine ⟨fun place t ht => ?_, h.connections_le hf,
    h.allConnections_le hf fun t ht => worker_lt_of_mem_begin ht, hlive, hpeak, fun hd => ?_,
    disconnect_eq_close⟩
  · obtain ⟨wire, hw, hc, -⟩ := h.wireAt hf hn ht
    exact hc ▸ Wire.orderly hw
  · obtain ⟨hover, -⟩ := (h.regular hf).rest hd
    have hnone : d.allConnections = 0 := List.countP_eq_zero.mpr fun t ht => by
      obtain ⟨_, hended⟩ := Task.ended_of_isOver (hover t ht)
      rw [Task.isConnected, hended]
      exact Bool.false_ne_true
    have hcounted := d.counted_le
    exact ⟨hnone, by rw [hlive]; omega⟩

/-- Two relays and room for one connection. The query to the first relay fails. -/
theorem connections_bounded_one :
    let job (id : String) : Job :=
      { relay := { id }, target := ⟨5, 5⟩
        settings := Config.settings { queryRetry := { maxAttempts := 1 } } { id } }
    let world : World :=
      { network := { peers := [("failing", .memory { events := [], queryFailures := 1 }),
          ("open", .memory { events := [], latency := 3 })] }
        sink := { depot := .memory {} } }
    let begun := (begin_ [job "failing", job "open"] 1 1 (fun _ _ => 0) [] {} 5 0 world).1
    ∃ acts d, Trail begun acts d ∧ d.step? = none ∧ d.world.network.attempts = 2 ∧
      d.world.network.peak = 1 ∧ d.world.network.live = 0 ∧ d.allConnections = 0 := by
  intro job world begun
  let note : List Report → Nat → Report → List Report := fun reports _ r => reports ++ [r]
  have hends : ∃ ended, Nat.repeat (advance note) 24 (begun, []) = ended ∧
      ended.1.step?.isNone = true ∧ ended.1.world.network.attempts = 2 ∧
        ended.1.world.network.peak = 1 := by
    refine ⟨_, rfl, ?_⟩
    revert job world begun note
    decide +kernel
  obtain ⟨ended, hend, hover, hattempts, hpeak⟩ := hends
  have hover := Option.isNone_iff_eq_none.mp hover
  obtain ⟨acts, htrail, -⟩ :=
    Trail.run note id (fun _ _ _ => rfl) (.start : Trail begun [] begun) []
  rw [run_eq_repeat hend hover, List.nil_append] at htrail
  obtain ⟨-, -, -, -, -, hrest, -⟩ := connections_bounded htrail
  obtain ⟨hnone, hlive⟩ := hrest hover
  exact ⟨acts, ended.1, htrail, hover, hattempts, hpeak, hlive, hnone⟩

end Dispatch

end Harvest
