import CronDaemon.Proofs.Scheduler.Course
import Mathlib.Data.List.Perm.Basic
import Mathlib.Data.List.Nodup

/-!
# The permits of the worker pool

In every reachable state of a scheduler with a worker pool, the free permits and the runs that hold
one add up to the number of permits, and the runs that wait for a permit are those in the queue of
the pool. While one run is looked at, it may wait without standing in the queue; at the end of the
step it has a permit, stands in the queue, or is gone.
-/

namespace CronDaemon.Scheduler

open Job

/-- Whether a run in this phase waits for a permit. -/
def Phase.isQueued : Phase → Bool
  | .queued _ => true
  | .spawned | .executing .. | .resting .. | .stranded => false

theorem Phase.isQueued_iff {phase : Phase} :
    phase.isQueued = true ↔ ∃ token, phase = .queued token := by
  cases phase <;> simp [Phase.isQueued]

/-- A run that holds a permit waits for none. -/
theorem Phase.isQueued_of_holdsPermit {phase : Phase} (h : phase.holdsPermit = true) :
    phase.isQueued = false := by
  cases phase <;> first | rfl | cases h

namespace State

variable {H : Type} {s s' : State H} {id k permits : Nat} {run : Run} {looked : Option Nat}
  {test : Phase → Bool}

/-- Whether there is a run with this number in a phase that satisfies a test. -/
def standsIn (s : State H) (test : Phase → Bool) (id : Nat) : Bool :=
  (s.runs.get? id).any fun run => test run.phase

/-- A run stands where its phase says. -/
theorem standsIn_of_get? (hrun : s.runs.get? id = some run) :
    s.standsIn test id = test run.phase := by
  rw [standsIn, hrun, Option.any_some]

/-- Only a run that is there stands anywhere. -/
theorem standsIn_eq_true_iff :
    s.standsIn test id = true ↔ ∃ run, s.runs.get? id = some run ∧ test run.phase = true := by
  rw [standsIn, Option.any_eq_true]

/-- A change that leaves the runs leaves where they stand. -/
theorem standsIn_of_runs_eq (h : s'.runs = s.runs) : s'.standsIn test id = s.standsIn test id := by
  rw [standsIn, h, standsIn]

/-- A run that is put into a phase stands there. -/
theorem standsIn_setPhase (hrun : s.runs.get? id = some run) {phase : Phase}
    (h : s'.runs = (s.setPhase id phase).runs) : s'.standsIn test id = test phase :=
  standsIn_of_get? (get?_runs_setPhase hrun phase h)

/-- The other runs stand where they stood. -/
theorem standsIn_setPhase_of_ne (hne : id ≠ k) {phase : Phase}
    (h : s'.runs = (s.setPhase id phase).runs) : s'.standsIn test k = s.standsIn test k := by
  rw [standsIn, h, setPhase, Table.get?_modify, if_neg hne, standsIn]

/-- A run that is dropped stands nowhere. -/
theorem standsIn_erase (h : s'.runs = s.runs.erase id) : s'.standsIn test id = false := by
  rw [standsIn, h, Table.get?_erase, if_pos rfl, Option.any_none]

/-- The runs that are left stand where they stood. -/
theorem standsIn_erase_of_ne (hne : id ≠ k) (h : s'.runs = s.runs.erase id) :
    s'.standsIn test k = s.standsIn test k := by
  rw [standsIn, h, Table.get?_erase, if_neg hne, standsIn]

/-- Runs that are spawned count for no test that a spawned run fails. -/
theorem standsIn_adds {kind : Nat → Run → Prop} (h : Adds kind s s')
    (hspawned : ∀ k run, kind k run → run.phase = .spawned)
    (hlt : ∀ k run, s.runs.get? k = some run → k < s.nextId) (htest : test .spawned = false) :
    s'.standsIn test id = s.standsIn test id := by
  rcases Nat.lt_or_ge id s.nextId with hid | hid
  · rw [standsIn, h.old id hid, standsIn]
  · have hnone : s.runs.get? id = none := by
      cases hrun : s.runs.get? id with
      | none => rfl
      | some run => exact absurd (hlt id run hrun) (Nat.not_lt.2 hid)
    rw [standsIn, standsIn, hnone, Option.any_none]
    cases hrun : s'.runs.get? id with
    | none => rfl
    | some run =>
      rcases h.runs id run hrun with hold | hnew
      · rw [hnone] at hold
        cases hold
      · rw [Option.any_some, hspawned id run hnew, htest]

/-- The runs that hold a permit. -/
def holders (s : State H) : List Nat :=
  (s.runs.entries.filter fun e => e.2.phase.holdsPermit).map (·.1)

/-- The holders are the runs that stand in a phase with a permit. -/
theorem mem_holders_iff : id ∈ s.holders ↔ s.standsIn Phase.holdsPermit id = true := by
  simp only [holders, List.mem_map, List.mem_filter, standsIn_eq_true_iff]
  constructor
  · rintro ⟨⟨k, run⟩, ⟨hmem, hholds⟩, rfl⟩
    exact ⟨run, Table.mem_entries_iff.1 hmem, hholds⟩
  · rintro ⟨run, hrun, hholds⟩
    exact ⟨(id, run), ⟨Table.mem_entries_iff.2 hrun, hholds⟩, rfl⟩

/-- Each holder is listed once. -/
theorem nodup_holders (s : State H) : s.holders.Nodup :=
  s.runs.nodup.sublist (List.filter_sublist.map _)

/-- There are as many holders as before if the same runs hold permits. -/
theorem length_holders_congr
    (h : ∀ k, s'.standsIn Phase.holdsPermit k = s.standsIn Phase.holdsPermit k) :
    s'.holders.length = s.holders.length := by
  refine List.Perm.length_eq ((List.perm_ext_iff_of_nodup s'.nodup_holders s.nodup_holders).2 ?_)
  intro k
  rw [mem_holders_iff, h, mem_holders_iff]

/-- A run that comes to hold a permit is one holder more. -/
theorem length_holders_succ (hnot : s.standsIn Phase.holdsPermit id = false)
    (hnew : s'.standsIn Phase.holdsPermit id = true)
    (hsame : ∀ k, id ≠ k → s'.standsIn Phase.holdsPermit k = s.standsIn Phase.holdsPermit k) :
    s'.holders.length = s.holders.length + 1 := by
  have hnotMem : id ∉ s.holders := by
    rw [mem_holders_iff, hnot]
    exact Bool.false_ne_true
  have hperm : List.Perm s'.holders (id :: s.holders) := by
    refine (List.perm_ext_iff_of_nodup s'.nodup_holders (s.nodup_holders.cons hnotMem)).2 fun k =>
      ?_
    rw [List.mem_cons, mem_holders_iff, mem_holders_iff]
    by_cases he : id = k
    · subst he
      simp [hnew]
    · rw [hsame k he]
      exact (or_iff_right fun hk => he hk.symm).symm
  exact hperm.length_eq

/-- A change of one run changes the number of holders by that run. -/
theorem length_holders_update
    (hsame : ∀ k, id ≠ k → s'.standsIn Phase.holdsPermit k = s.standsIn Phase.holdsPermit k) :
    s'.holders.length + (s.standsIn Phase.holdsPermit id).toNat =
      s.holders.length + (s'.standsIn Phase.holdsPermit id).toNat := by
  have hback : ∀ k, id ≠ k → s.standsIn Phase.holdsPermit k = s'.standsIn Phase.holdsPermit k :=
    fun k hne => (hsame k hne).symm
  cases hbefore : s.standsIn Phase.holdsPermit id <;> cases hafter :
    s'.standsIn Phase.holdsPermit id
  · refine length_holders_congr fun k => ?_
    by_cases he : id = k
    · rw [← he, hbefore, hafter]
    · exact hsame k he
  · exact length_holders_succ hbefore hafter hsame
  · exact (length_holders_succ hafter hbefore hback).symm
  · refine congrArg (· + 1) (length_holders_congr fun k => ?_)
    by_cases he : id = k
    · rw [← he, hbefore, hafter]
    · exact hsame k he

end State

/-- The permits of a pool add up, and its queue holds the runs that wait, save one that is looked
at. -/
structure Pool.Fits {H : Type} (pool : Pool) (s : State H) (permits : Nat) (looked : Option Nat) :
    Prop where
  conserved : pool.free + s.holders.length = permits
  nodup : pool.waiting.Nodup
  queued : ∀ k ∈ pool.waiting, s.standsIn Phase.isQueued k = true
  waits : ∀ k, s.standsIn Phase.isQueued k = true → some k ≠ looked → k ∈ pool.waiting

namespace Pool.Fits

variable {H : Type} {s s' : State H} {pool pool' : Pool} {id permits : Nat}
  {looked looked' : Option Nat}

/-- A pool fits wherever the runs stand alike. -/
theorem congr (h : pool.Fits s permits looked)
    (hsame : ∀ test : Phase → Bool, test .spawned = false → ∀ k,
      s'.standsIn test k = s.standsIn test k) : pool.Fits s' permits looked where
  conserved := by
    rw [State.length_holders_congr (hsame _ rfl)]
    exact h.conserved
  nodup := h.nodup
  queued k hk := by
    rw [hsame _ rfl]
    exact h.queued k hk
  waits k hk := by
    rw [hsame _ rfl] at hk
    exact h.waits k hk

/-- A change of one run fits if its permit is taken from the free ones or given back to them, and
its place in the queue goes with its phase. -/
theorem update (h : pool.Fits s permits looked)
    (hsame : ∀ (test : Phase → Bool) k, id ≠ k → s'.standsIn test k = s.standsIn test k)
    (hfree : pool'.free + (s'.standsIn Phase.holdsPermit id).toNat =
      pool.free + (s.standsIn Phase.holdsPermit id).toNat)
    (hnodup : pool'.waiting.Nodup)
    (hwaiting : ∀ k, id ≠ k → (k ∈ pool'.waiting ↔ k ∈ pool.waiting))
    (hmem : id ∈ pool'.waiting → s'.standsIn Phase.isQueued id = true)
    (hqueued : s'.standsIn Phase.isQueued id = true → some id ≠ looked' → id ∈ pool'.waiting)
    (hlooked : ∀ k, id ≠ k → some k = looked → some k = looked') :
    pool'.Fits s' permits looked' where
  conserved := by
    have hlength := State.length_holders_update (hsame Phase.holdsPermit)
    have hconserved := h.conserved
    omega
  nodup := hnodup
  queued k hk := by
    by_cases he : id = k
    · subst he
      exact hmem hk
    · rw [hsame _ k he]
      exact h.queued k ((hwaiting k he).1 hk)
  waits k hk hne := by
    by_cases he : id = k
    · subst he
      exact hqueued hk hne
    · rw [hsame _ k he] at hk
      exact (hwaiting k he).2 (h.waits k hk fun hk' => hne (hlooked k he hk'))

/-- A run that does not wait stands in no queue. -/
theorem notMem (h : pool.Fits s permits looked) (hnot : s.standsIn Phase.isQueued id = false) :
    id ∉ pool.waiting := by
  intro hmem
  rw [h.queued id hmem] at hnot
  cases hnot

/-- While a run is looked at it may wait without standing in the queue. -/
theorem look (h : pool.Fits s permits none) (id : Nat) : pool.Fits s permits (some id) where
  conserved := h.conserved
  nodup := h.nodup
  queued := h.queued
  waits k hk _ := h.waits k hk nofun

/-- A run that does not wait has been looked at. -/
theorem settle (h : pool.Fits s permits (some id)) (hnot : s.standsIn Phase.isQueued id = false) :
    pool.Fits s permits none where
  conserved := h.conserved
  nodup := h.nodup
  queued := h.queued
  waits k hk _ := by
    refine h.waits k hk fun he => ?_
    cases he
    rw [hk] at hnot
    cases hnot

end Pool.Fits

namespace State

variable {H : Type} {s s' : State H} {id k permits : Nat} {run other : Run} {looked : Option Nat}
  {event : Event H}

/-- The scheduler has a pool that fits its runs. -/
def Serves (s : State H) (permits : Nat) (looked : Option Nat) : Prop :=
  ∃ pool, s.pool = some pool ∧ pool.Fits s permits looked

/-- The pool fits after a change that leaves it and where the runs stand. -/
theorem Serves.congr (h : s.Serves permits looked) (hpool : s'.pool = s.pool)
    (hsame : ∀ test : Phase → Bool, test .spawned = false → ∀ k,
      s'.standsIn test k = s.standsIn test k) : s'.Serves permits looked := by
  obtain ⟨pool, hs, hfits⟩ := h
  exact ⟨pool, hpool.trans hs, hfits.congr hsame⟩

/-- The pool fits after a change that leaves it and the runs. -/
theorem Serves.of_eq (h : s.Serves permits looked) (hpool : s'.pool = s.pool)
    (hruns : s'.runs = s.runs) : s'.Serves permits looked :=
  h.congr hpool fun _ _ _ => standsIn_of_runs_eq hruns

/-- Any run may be the one that is looked at. -/
theorem Serves.look (h : s.Serves permits none) (id : Nat) : s.Serves permits (some id) := by
  obtain ⟨pool, hpool, hfits⟩ := h
  exact ⟨pool, hpool, hfits.look id⟩

/-- A run that does not wait for a permit needs no look any more. -/
theorem Serves.settle (h : s.Serves permits (some id))
    (hnot : s.standsIn Phase.isQueued id = false) : s.Serves permits none := by
  obtain ⟨pool, hpool, hfits⟩ := h
  exact ⟨pool, hpool, hfits.settle hnot⟩

/-- A run that does not wait stands in no queue. -/
theorem Serves.notMem (h : s.Serves permits looked) (hnot : s.standsIn Phase.isQueued id = false)
    (pool : Pool) (hpool : s.pool = some pool) : id ∉ pool.waiting := by
  obtain ⟨pool', hs, hfits⟩ := h
  rw [hs] at hpool
  cases hpool
  exact hfits.notMem hnot

/-- Runs that are spawned neither hold permits nor wait for one. -/
theorem Serves.adds {kind : Nat → Run → Prop} (h : s.Serves permits looked) (hadds : Adds kind s s')
    (hspawned : ∀ k run, kind k run → run.phase = .spawned)
    (hlt : ∀ k run, s.runs.get? k = some run → k < s.nextId) (hpool : s'.pool = s.pool) :
    s'.Serves permits looked :=
  h.congr hpool fun _ htest _ => standsIn_adds hadds hspawned hlt htest

/-- A run may go from one phase to another if it holds a permit in both or in none, and waits in
none. -/
theorem Serves.setPhase (h : s.Serves permits looked) (hrun : s.runs.get? id = some run)
    {phase : Phase} (hpool : s'.pool = s.pool) (hruns : s'.runs = (s.setPhase id phase).runs)
    (hholds : phase.holdsPermit = run.phase.holdsPermit) (hbefore : run.phase.isQueued = false)
    (hafter : phase.isQueued = false) : s'.Serves permits looked := by
  obtain ⟨pool, hs, hfits⟩ := h
  have hnot : id ∉ pool.waiting := hfits.notMem ((standsIn_of_get? hrun).trans hbefore)
  refine ⟨pool, hpool.trans hs,
    hfits.update (fun test k hne => standsIn_setPhase_of_ne hne hruns) ?_
    hfits.nodup (fun _ _ => Iff.rfl) (fun hmem => absurd hmem hnot) (fun hqueued => ?_)
    fun _ _ hk => hk⟩
  · rw [standsIn_setPhase hrun hruns, standsIn_of_get? hrun, hholds]
  · rw [standsIn_setPhase hrun hruns, hafter] at hqueued
    cases hqueued

/-- A run without a permit that stands in no queue may be dropped. -/
theorem Serves.erase (h : s.Serves permits looked) (hrun : s.runs.get? id = some run)
    (hholds : run.phase.holdsPermit = false)
    (hnot : ∀ pool, s.pool = some pool → id ∉ pool.waiting)
    (hpool : s'.pool = s.pool) (hruns : s'.runs = s.runs.erase id) : s'.Serves permits looked := by
  obtain ⟨pool, hs, hfits⟩ := h
  refine ⟨pool, hpool.trans hs, hfits.update (fun test k hne => standsIn_erase_of_ne hne hruns) ?_
    hfits.nodup (fun _ _ => Iff.rfl) (fun hmem => absurd hmem (hnot pool hs)) (fun hqueued => ?_)
    fun _ _ hk => hk⟩
  · rw [standsIn_erase hruns, standsIn_of_get? hrun, hholds]
  · rw [standsIn_erase hruns] at hqueued
    cases hqueued

/-- A run that leaves its permit gives it back. -/
theorem Serves.release (h : s.Serves permits looked) (hrun : s.runs.get? id = some run)
    (hholds : run.phase.holdsPermit = true) (hpool : s'.pool = s.releasePermit.pool)
    (hsame : ∀ (test : Phase → Bool) k, id ≠ k → s'.standsIn test k = s.standsIn test k)
    (hleft : ∀ test : Phase → Bool, test .stranded = false → s'.standsIn test id = false) :
    s'.Serves permits looked := by
  obtain ⟨pool, hs, hfits⟩ := h
  have hnot : id ∉ pool.waiting :=
    hfits.notMem ((standsIn_of_get? hrun).trans (Phase.isQueued_of_holdsPermit hholds))
  refine ⟨{ pool with free := pool.free + 1 }, by rw [hpool, releasePermit, hs, Option.map_some],
    hfits.update hsame ?_ hfits.nodup (fun _ _ => Iff.rfl) (fun hmem => absurd hmem hnot)
    (fun hqueued => ?_) fun _ _ hk => hk⟩
  · rw [hleft _ rfl, standsIn_of_get? hrun, hholds]
    rfl
  · rw [hleft _ rfl] at hqueued
    cases hqueued

/-- A run that is taken out of the queue is looked at. -/
theorem Serves.dequeue (h : s.Serves permits none) (id : Nat) :
    (s.dequeue id).Serves permits (some id) ∧
      ∀ pool, (s.dequeue id).pool = some pool → id ∉ pool.waiting := by
  obtain ⟨pool, hs, hfits⟩ := h
  have hpool : (s.dequeue id).pool = some { pool with waiting := pool.waiting.erase id } := by
    rw [State.dequeue, hs, Option.map_some]
  refine ⟨⟨_, hpool, hfits.update (fun _ _ _ => rfl) rfl
    (hfits.nodup.erase id) (fun k hne => List.mem_erase_of_ne hne.symm)
    (fun hmem => absurd hmem hfits.nodup.not_mem_erase) (fun _ hne => absurd rfl hne) (by simp)⟩,
    fun pool' hpool' => ?_⟩
  rw [hpool] at hpool'
  cases hpool'
  exact hfits.nodup.not_mem_erase

/-- A run that is left gives back its permit or its place in the queue. -/
theorem Serves.abandon (h : s.Serves permits looked) (k : Nat) :
    (s.abandon k).Serves permits looked := by
  cases hk : s.runs.get? k with
  | none =>
    rw [show s.abandon k = s by simp only [State.abandon, hk]]
    exact h
  | some run =>
    cases hphase : run.phase with
    | spawned =>
      have he : s.abandon k = { s with runs := s.runs.erase k } := by
        simp only [State.abandon, hk, hphase]
      rw [he]
      refine h.erase hk (by rw [hphase]; rfl) (h.notMem ?_) rfl rfl
      rw [standsIn_of_get? hk, hphase]
      rfl
    | queued token =>
      have he : s.abandon k = (s.dequeue k).setPhase k .stranded := by
        simp only [State.abandon, hk, hphase]
      have hruns : ((s.dequeue k).setPhase k .stranded).runs = (s.setPhase k .stranded).runs := rfl
      obtain ⟨pool, hs, hfits⟩ := h
      rw [he]
      refine ⟨{ pool with waiting := pool.waiting.erase k },
        by rw [State.setPhase, State.dequeue, hs, Option.map_some],
        hfits.update (fun test j hne => standsIn_setPhase_of_ne hne hruns) ?_ (hfits.nodup.erase k)
        (fun j hne => List.mem_erase_of_ne hne.symm)
        (fun hmem => absurd hmem hfits.nodup.not_mem_erase) (fun hqueued => ?_) fun _ _ hj => hj⟩
      · rw [standsIn_setPhase hk hruns, standsIn_of_get? hk, hphase]
        rfl
      · rw [standsIn_setPhase hk hruns] at hqueued
        cases hqueued
    | executing | resting =>
      have he : s.abandon k = s.releasePermit.setPhase k .stranded := by
        simp only [State.abandon, hk, hphase]
      have hruns : (s.releasePermit.setPhase k .stranded).runs =
          (s.setPhase k .stranded).runs := rfl
      rw [he]
      exact h.release hk (by rw [hphase]; rfl) rfl
        (fun test j hne => standsIn_setPhase_of_ne hne hruns)
        fun test htest => (standsIn_setPhase hk hruns).trans htest
    | stranded =>
      rw [show s.abandon k = s by simp only [State.abandon, hk, hphase]]
      exact h

/-- A call that leaves all its runs gives back their permits. -/
theorem Serves.abandonAll (call : Nat) (entries : List (Nat × Run)) {s : State H}
    (h : s.Serves permits looked) : (s.abandonAll call entries).Serves permits looked := by
  unfold State.abandonAll
  induction entries generalizing s with
  | nil => exact h
  | cons e entries ih =>
    rw [List.foldl_cons]
    split
    · exact ih (h.abandon e.1)
    · exact ih h

/-- A call that breaks off changes the pool by the permits of its runs alone. -/
theorem pool_breakCall (s : State H) (call : Nat) (fault : Fault) :
    (s.breakCall call fault).pool = (s.abandonAll call s.runs.entries).pool := by
  rw [breakCall_eq]

/-- The pool fits after a call has broken off. -/
theorem Serves.breakCall (h : s.Serves permits looked) (call : Nat) (fault : Fault) :
    (s.breakCall call fault).Serves permits looked :=
  (h.abandonAll call s.runs.entries).of_eq (pool_breakCall s call fault)
    (runs_breakCall s call fault)

/-- The pool fits after a caller has hung up. -/
theorem Serves.hangUp (h : s.Serves permits none) (call : Nat) :
    (s.hangUp call).Serves permits none := by
  have hserves : { s with lock := { s.lock with waiting := s.lock.waiting.erase call } }.Serves
    permits none := h.of_eq rfl rfl
  exact hserves.breakCall call .hungUp

/-- To wake the waiting stops leaves the pool. -/
theorem pool_wakeStops (s : State H) : s.wakeStops.pool = s.pool := by
  unfold wakeStops
  split <;> rfl

/-- The pool fits after the stops were woken. -/
theorem Serves.wakeStops (h : s.Serves permits looked) : s.wakeStops.Serves permits looked :=
  h.of_eq (pool_wakeStops s) (congrArg Ledger.runs (ledger_wakeStops s))

/-- A run that breaks off has been looked at. -/
theorem Serves.breakRun (h : s.Serves permits (some id)) (hrun : s.runs.get? id = some run)
    (howner : other.owner = run.owner) (fault : Fault) :
    (s.breakRun id other fault).Serves permits none := by
  have hserves : (s.breakRun id other fault).Serves permits (some id) := by
    unfold State.breakRun
    cases other.owner with
    | dispatched => exact (h.abandon id).wakeStops
    | call call => exact h.breakCall call fault
  refine hserves.settle ?_
  cases hrun' : (s.breakRun id other fault).runs.get? id with
  | none => rw [standsIn, hrun', Option.any_none]
  | some run' =>
    rw [standsIn_of_get? hrun', phase_of_breakRun hrun howner hrun']
    rfl

/-- A run that is dropped with its outcome leaves the pool, since its permit was given back before.
-/
theorem pool_finish (s : State H) (id : Nat) (run : Run) (outcome : RunOutcome) :
    (s.finish id run outcome).pool = s.pool := by
  unfold State.finish
  cases run.owner with
  | dispatched => exact pool_wakeStops _
  | call call => rfl

/-- A run whose result is put down gives back its permit, if it holds one. -/
theorem Serves.putDown (h : s.Serves permits looked) (hrun : s.runs.get? id = some run)
    (hnot : ∀ pool, s.pool = some pool → id ∉ pool.waiting) (result : Except JobError Unit)
    (now : Instant) (record : Record H) :
    (s.putDown id run result now record).Serves permits looked := by
  have hruns : (s.putDown id run result now record).runs = s.runs.erase id :=
    congrArg Ledger.runs (ledger_putDown s id run result now record)
  cases hholds : run.phase.holdsPermit with
  | true =>
    refine h.release hrun hholds ?_ (fun test k hne => standsIn_erase_of_ne hne hruns)
      fun test _ => standsIn_erase hruns
    simp only [State.putDown, hholds, if_true, pool_finish]
    rfl
  | false =>
    refine h.erase hrun hholds hnot ?_ hruns
    simp only [State.putDown, hholds, pool_finish]
    rfl

/-- A run that ends with a result has been looked at. -/
theorem Serves.conclude (h : s.Serves permits (some id)) (hrun : s.runs.get? id = some run)
    (hnot : ∀ pool, s.pool = some pool → id ∉ pool.waiting)
    (hrecord : ∃ record, s.records.get? run.record = some record) (result : Except JobError Unit) :
    (s.conclude id run result).Serves permits none := by
  rcases s.conclude_cases id run result with
    ⟨hnone, -⟩ | ⟨fault, -, he⟩ | ⟨_, now, after, -, -, -, he⟩
  · obtain ⟨record, hrecord⟩ := hrecord
    rw [hnone] at hrecord
    cases hrecord
  · rw [he]
    exact h.breakRun hrun rfl fault
  · rw [he]
    refine (h.putDown hrun hnot result now after).settle (standsIn_erase (s := s) ?_)
    exact congrArg Ledger.runs (ledger_putDown s id run result now after)

/-- A run that is launched takes a free permit, or breaks off. -/
theorem Serves.launch (h : s.Serves permits (some id)) (hrun : s.runs.get? id = some run)
    (hholds : run.phase.holdsPermit = false)
    (hnot : ∀ pool, s.pool = some pool → id ∉ pool.waiting)
    (hfree : ∀ pool, s.pool = some pool → 0 < pool.free) (token : Token) :
    (s.launch id run token).Serves permits none := by
  unfold State.launch
  split
  · next deadline _ =>
    obtain ⟨pool, hs, hfits⟩ := h
    have hpos := hfree pool hs
    have hruns : (s.takePermit.attempt id run token deadline 0).runs =
        (s.setPhase id (.executing token deadline 0)).runs := rfl
    refine ⟨{ pool with free := pool.free - 1 }, ?_, hfits.update
      (fun test k hne => standsIn_setPhase_of_ne hne hruns) ?_ hfits.nodup (fun _ _ => Iff.rfl)
      (fun hmem => absurd hmem (hnot pool hs)) (fun hqueued => ?_) fun k hne hk => ?_⟩
    · show s.takePermit.pool = _
      rw [takePermit, hs, Option.map_some]
    · rw [standsIn_setPhase hrun hruns, standsIn_of_get? hrun, hholds]
      show pool.free - 1 + 1 = pool.free + 0
      omega
    · rw [standsIn_setPhase hrun hruns] at hqueued
      cases hqueued
    · exact absurd (Option.some.inj hk).symm hne
  · obtain ⟨pool, hs, hfits⟩ := h
    have hqueued : s.setPhase id (.queued token) |>.Serves permits (some id) := by
      refine ⟨pool, hs, hfits.update (fun test k hne => standsIn_setPhase_of_ne (s := s) hne rfl) ?_
        hfits.nodup (fun _ _ => Iff.rfl) (fun hmem => absurd hmem (hnot pool hs))
        (fun _ hne => absurd rfl hne) fun _ _ hk => hk⟩
      rw [standsIn_setPhase (s := s) hrun rfl, standsIn_of_get? hrun, hholds]
      rfl
    exact hqueued.breakRun (get?_runs_setPhase hrun _ rfl) rfl _

/-- A permit that no waiting run has a claim to is free. -/
theorem free_pos_of_spare (h : s.hasSparePermit = true) (pool : Pool) (hpool : s.pool = some pool) :
    0 < pool.free := by
  simp only [hasSparePermit, hpool, decide_eq_true_eq] at h
  omega

/-- A run that may acquire a permit finds one free. -/
theorem free_pos_of_mayAcquire (h : s.mayAcquire id = true) (pool : Pool)
    (hpool : s.pool = some pool) : 0 < pool.free := by
  simp only [mayAcquire, hpool, List.contains_eq_mem, decide_eq_true_eq] at h
  refine Nat.pos_of_ne_zero fun hzero => ?_
  rw [hzero, List.take_zero] at h
  cases h

/-- A run that is accepted takes a permit or joins those that wait. -/
theorem Serves.accept (h : s.Serves permits none) (hrun : s.runs.get? id = some run)
    (hphase : run.phase = .spawned) : (s.accept id run).Serves permits none := by
  have hnone : s.standsIn Phase.isQueued id = false := by
    rw [standsIn_of_get? hrun, hphase]
    rfl
  have hnot := h.notMem hnone
  cases hspare : s.hasSparePermit with
  | true =>
    rw [accept_of_spare hspare]
    have hlook : (s.letPass id run).Serves permits (some id) := (h.look id).of_eq rfl rfl
    exact hlook.launch hrun (by rw [hphase]; rfl) hnot
      (free_pos_of_spare (s := s.letPass id run) hspare) _
  | false =>
    rw [accept_of_not_spare hspare]
    obtain ⟨pool, hs, hfits⟩ := h
    have hruns : (((s.letPass id run).setPhase id (.queued ⟨s.lifetime, false⟩)).enqueue id).runs =
        (s.setPhase id (.queued ⟨s.lifetime, false⟩)).runs := rfl
    refine ⟨{ pool with waiting := pool.waiting ++ [id] }, ?_, hfits.update
      (fun test k hne => standsIn_setPhase_of_ne hne hruns) ?_ ?_ (fun k hne => ?_)
      (fun _ => standsIn_setPhase hrun hruns) (fun _ _ => by simp) fun _ _ hk => hk⟩
    · have hpool : ((s.letPass id run).setPhase id (.queued ⟨s.lifetime, false⟩)).pool =
          some pool := hs
      rw [enqueue, hpool, Option.map_some]
    · rw [standsIn_setPhase hrun hruns, standsIn_of_get? hrun, hphase]
      rfl
    · refine List.nodup_append.2 ⟨hfits.nodup, List.nodup_singleton id, fun a ha b hb he => ?_⟩
      rw [List.mem_singleton.1 hb] at he
      exact hnot pool hs (he ▸ ha)
    · rw [List.mem_append, List.mem_singleton]
      exact or_iff_left fun he => hne he.symm

/-- The pool fits after the first look at a run. -/
theorem Serves.begin (h : s.Serves permits none) (hrun : s.runs.get? id = some run)
    (hphase : run.phase = .spawned) : (s.begin id run).Serves permits none := by
  rcases begin_cases s id run with he | he | he <;> rw [he]
  · exact h
  · have hnone : s.standsIn Phase.isQueued id = false := by
      rw [standsIn_of_get? hrun, hphase]
      rfl
    have hnot := h.notMem hnone
    exact h.erase hrun (by rw [hphase]; rfl) hnot (pool_finish (s.note _) id run _)
      (congrArg Ledger.runs (ledger_finish (s.note _) id run _))
  · exact h.accept hrun hphase

/-- A run that holds a permit and ends has been looked at. -/
theorem Serves.conclude_of_holdsPermit (h : s.Serves permits none)
    (hrun : s.runs.get? id = some run) (hholds : run.phase.holdsPermit = true)
    (hrecord : ∃ record, s.records.get? run.record = some record) (result : Except JobError Unit) :
    (s.conclude id run result).Serves permits none := by
  have hnot := h.notMem ((standsIn_of_get? hrun).trans (Phase.isQueued_of_holdsPermit hholds))
  exact (h.look id).conclude hrun hnot hrecord result

/-- The pool fits after a start has got the lock. -/
theorem Serves.enterStart (h : s.Serves permits none) (call : Nat)
    (hlt : ∀ k run, s.runs.get? k = some run → k < s.nextId) :
    (s.enterStart call).Serves permits none := by
  rcases s.enterStart_cases call with he | ⟨records, journal, hcases⟩
  · rw [he]
    exact h.of_eq rfl rfl
  · let entered : State H := { s with lock := s.lock.take call, records := records, journal :=
      journal }
    have hentered : entered.Serves permits none := h.of_eq rfl rfl
    rcases hcases with ⟨fault, he⟩ | he
    · rw [he]
      exact hentered.breakCall call fault
    · obtain ⟨_, _, _, hcatchUp⟩ := entered.catchUp_eq call
      have hserves : (entered.catchUp call).Serves permits none :=
        hentered.adds (adds_catchUp entered call) (fun _ _ hkind => hkind.1) hlt
          (by rw [hcatchUp])
      rw [he]
      exact hserves.of_eq rfl rfl

/-- Each change of a scheduler leaves it with a pool that fits its runs. -/
theorem Transition.serves (h : s.Transition event s') (hs : s.Reachable)
    (hserves : s.Serves permits none) : s'.Serves permits none := by
  have hlt : ∀ k run, s.runs.get? k = some run → k < s.nextId := fun _ _ => hs.run_lt
  -- What goes on with a run has a lemma of its own; everything else only spawns runs, which hold no
  -- permit, or leaves pool and runs alone.
  cases h with
  | refuse => exact hserves
  | register | remove | setEnabled | start | stop | setClock | leave | answer | openLoop | endStop
  | elapse => exact hserves.of_eq rfl rfl
  | @runNow _ number =>
    have hadds : Adds (fun _ run => run.phase = .spawned) s (s.spawn number .manual .dispatched) :=
      Adds.spawn rfl
    exact hserves.adds hadds (fun _ _ hkind => hkind) hlt rfl
  | trigger names =>
    have hopened : { s with nextId := s.nextId + 1 }.Serves permits none := hserves.of_eq rfl rfl
    obtain ⟨_, _, he⟩ := askFor_eq s.nextId names { s with nextId := s.nextId + 1 }
    have hasked := hopened.adds (adds_askFor s.nextId names _) (fun _ _ hkind => hkind.1)
      (fun k run hrun => Nat.lt_succ_of_lt (hlt k run hrun)) (by rw [he])
    exact hasked.of_eq rfl rfl
  | begin hrun hphase => exact hserves.begin hrun hphase
  | @cancel id run token hrun hphase =>
    obtain ⟨hlook, hnot⟩ := hserves.dequeue id
    exact hlook.conclude hrun hnot (hs.record_of_run hrun) _
  | @acquire id run token hrun hphase hlive hfirst =>
    obtain ⟨hlook, hnot⟩ := hserves.dequeue id
    refine hlook.launch hrun (by rw [hphase]; rfl) hnot (fun pool hpool => ?_) token
    obtain ⟨before, hbefore, rfl⟩ := Option.map_eq_some_iff.1 hpool
    exact free_pos_of_mayAcquire hfirst before hbefore
  | @endAttempt id run token deadline attempt ending hrun hphase =>
    have hholds : run.phase.holdsPermit = true := by rw [hphase]; rfl
    have hconclude : ∀ entry result,
        ((s.note entry).conclude id run result).Serves permits none := by
      intro entry result
      have hnoted : (s.note entry).Serves permits none := hserves.of_eq rfl rfl
      exact hnoted.conclude_of_holdsPermit hrun hholds (hs.record_of_run hrun) result
    simp only [State.endAttempt]
    split
    · exact hconclude _ _
    · split
      · refine hserves.setPhase hrun rfl rfl ?_ (Phase.isQueued_of_holdsPermit hholds) rfl
        rw [hholds]
        rfl
      · exact hconclude _ _
  | @retry id run token deadline wake attempt failure hrun hphase =>
    have hholds : run.phase.holdsPermit = true := by rw [hphase]; rfl
    have hruns : (s.attempt id run token deadline (attempt + 1)).runs =
        (s.setPhase id (.executing token deadline (attempt + 1))).runs := rfl
    refine hserves.setPhase hrun rfl hruns ?_ (Phase.isQueued_of_holdsPermit hholds) rfl
    rw [hholds]
    rfl
  | giveUp hrun hphase =>
    exact hserves.conclude_of_holdsPermit hrun (by rw [hphase]; rfl) (hs.record_of_run hrun) _
  | revokeExecuting hrun hphase | revokeResting hrun hphase =>
    refine hserves.setPhase hrun rfl rfl ?_ ?_ rfl
    · rw [hphase]
      rfl
    · rw [hphase]
      rfl
  | @tick id loop =>
    unfold State.tick
    split
    · exact hserves.of_eq rfl rfl
    · next now _ =>
      have hnoted : (s.note (.ticked id s.due s.clock now)).Serves permits none :=
        hserves.of_eq rfl rfl
      obtain ⟨_, _, he⟩ := dispatchAll_eq s.due (s.note (.ticked id s.due s.clock now))
      have hdispatched := hnoted.adds (adds_dispatchAll s.due _) (fun _ _ hkind => hkind.1) hlt
        (by rw [he])
      exact hdispatched.of_eq rfl rfl
  | @enterStart call => exact hserves.enterStart call hlt
  | enterStop =>
    simp only [State.enterStop]
    split <;> exact hserves.of_eq rfl rfl
  | drain =>
    have hclosed : { s with running := false, closed := true }.Serves permits none :=
      hserves.of_eq rfl rfl
    exact hclosed.wakeStops.of_eq rfl rfl
  | hangUp => exact hserves.hangUp _

/-- A scheduler that is made with a pool has one that fits its runs in every state that it gets
into. -/
theorem serves_of_replay? {options : Options} {now : Instant} {start : State H}
    {events : List (Event H)} (hpermits : options.permits? = some permits)
    (hcreate : create? options now = some start) (hreplay : start.replay? events = some s) :
    s.Serves permits none := by
  have hstart : start.Reachable := .of_create? hcreate
  have hinitial : start.Serves permits none := by
    rw [eq_initial_of_create? hcreate]
    refine ⟨⟨permits, []⟩, by simp only [initial, hpermits, Option.map_some], rfl, List.nodup_nil,
      fun _ hk => absurd hk List.not_mem_nil, fun k hk => ?_⟩
    cases hk
  refine history_induction (motive := fun _ s => s.Serves permits none) hinitial ?_ hreplay
  intro before event t t' ht hfire ih
  exact (transition_of_fire? hfire).serves (hstart.replay? ht) ih

end State

end CronDaemon.Scheduler
