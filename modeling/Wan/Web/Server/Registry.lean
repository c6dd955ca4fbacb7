import Wan.Web.Server.Lifecycle

/-!
# What a forced stop closes

`CloseAll` dispatches the close callbacks of what is registered when it takes the entries.  A
connection that the accept loop registers after that, because it looked at the stopping flag
before, is not closed.  As long as nothing is registered so late, a forced stop closes every
connection.
-/

namespace Wan.Web.Server

open Wan.Library

/-- The id under which a party is, or is going to be, a connection that is registered. -/
def Party.ids : Party → List UInt64
  | .run (.spawn _ id) | .run (.unregister _ id) => [id]
  | .connection _ _ .release => []
  | .connection _ id _ => [id]
  | _ => []

/-- The ids that a call of `CloseAll` has taken and has yet to dispatch. -/
def Party.undispatched : Party → List UInt64
  | .forceStop _ (.dispatch todo) => todo
  | _ => []

/-- The id of a connection that has been launched and has not ended by itself. -/
def Party.openIds : Party → List UInt64
  | .connection _ _ .release => []
  | .connection _ id _ => [id]
  | _ => []

theorem Party.openIds_subset (party : Party) : party.openIds ⊆ party.ids := by
  cases party with
  | connection slot id stage => cases stage <;> exact List.Subset.refl _
  | _ => exact List.nil_subset _

/-- The accept loop is in the middle of a launch. -/
def Party.launching : Party → Bool
  | .run stage => !stage.slots.isEmpty
  | _ => false

/-- A forced stop that has yet to take the entries of the registry. -/
def Party.forceStops : Party → Bool
  | .forceStop _ (.dispatch _) => false
  | .forceStop _ _ => true
  | _ => false

/-- A forced stop of a server that was started is under way. -/
def ForceStopping (pool : Pool State Party) : Prop :=
  pool.shared.started = true ∧ ∃ party ∈ pool.parties, party.forceStops = true

/-- When no forced stop is under way any more and the launch that was under way is over, the
close callback of every connection that is still open has been dispatched. -/
def AllClosed (pool : Pool State Party) : Prop :=
  (∀ resume stage, .forceStop resume stage ∉ pool.parties) →
    (∀ party ∈ pool.parties, party.launching = false) →
    ∀ party ∈ pool.parties, ∀ id ∈ party.openIds, id ∈ pool.shared.dispatched

/-- The turn enters a connection into the registry. -/
def State.enters (state : State) : Party → Outcome → Bool
  | .run (.register _), outcome => outcome ≠ .thrown && state.registry.nextId ≠ 0
  | _, _ => false

/-- Nothing is entered after a `CloseAll` has taken the entries. -/
def Timely (state : State) (party : Party) (outcome : Outcome) : Prop :=
  state.enters party outcome = true → state.swept = false

instance (state : State) (party : Party) (outcome : Outcome) :
    Decidable (Timely state party outcome) :=
  inferInstanceAs (Decidable (_ → _))

/-- The ids of parties. -/
def ids (parties : List Party) : List UInt64 := parties.flatMap Party.ids

/-- What calls of `CloseAll` have yet to dispatch. -/
def undispatched (parties : List Party) : List UInt64 := parties.flatMap Party.undispatched

@[simp] theorem ids_append (front back : List Party) :
    ids (front ++ back) = ids front ++ ids back := List.flatMap_append

@[simp] theorem ids_tasks (tasks : List Task) : ids (tasks.map .task) = [] := by
  simp [ids, Party.ids]

@[simp] theorem ids_rest (resume : Resume) : ids resume.rest = [] := by
  cases resume <;> rfl

@[simp] theorem undispatched_append (front back : List Party) :
    undispatched (front ++ back) = undispatched front ++ undispatched back := List.flatMap_append

@[simp] theorem undispatched_tasks (tasks : List Task) :
    undispatched (tasks.map .task) = [] := by
  simp [undispatched, Party.undispatched]

@[simp] theorem undispatched_rest (resume : Resume) : undispatched resume.rest = [] := by
  cases resume <;> rfl

/-- The parts of the state that say what is registered and closed. -/
structure Unchanged (state later : State) : Prop where
  dispatched : later.dispatched = state.dispatched
  swept : later.swept = state.swept

/-- What a change does to what is registered and closed. -/
inductive RegistryChange (state : State) (acting : List Party) (later : State)
    (left : List Party) : Prop where
  | quiet (registry : later.registry = state.registry) (unchanged : Unchanged state later)
      (same : ids left = ids acting) (todo : undispatched left = undispatched acting) :
      RegistryChange state acting later left
  | enter (available : state.registry.nextId ≠ 0)
      (registry : later.registry =
        ⟨state.registry.nextId :: state.registry.connections, state.registry.nextId + 1⟩)
      (early : state.swept = false) (unchanged : Unchanged state later)
      (before : ids acting = []) (after : ids left = [state.registry.nextId])
      (none : undispatched acting = []) (todo : undispatched left = []) :
      RegistryChange state acting later left
  | skip (available : state.registry.nextId ≠ 0) (registry : later.registry = state.registry.skipId)
      (unchanged : Unchanged state later)
      (before : ids acting = []) (after : ids left = []) (none : undispatched acting = [])
      (todo : undispatched left = []) :
      RegistryChange state acting later left
  | remove (id : UInt64) (registry : later.registry = state.registry.remove id)
      (unchanged : Unchanged state later) (before : ids acting = [id]) (after : ids left = [])
      (none : undispatched acting = []) (todo : undispatched left = []) :
      RegistryChange state acting later left
  | sweep (registry : later.registry = { state.registry with connections := [] })
      (dispatched : later.dispatched = state.dispatched) (swept : later.swept = true)
      (before : ids acting = []) (after : ids left = []) (none : undispatched acting = [])
      (todo : undispatched left = state.registry.connections) :
      RegistryChange state acting later left
  | dispatch (id : UInt64) (registry : later.registry = state.registry)
      (dispatched : later.dispatched = id :: state.dispatched) (swept : later.swept = state.swept)
      (before : ids acting = []) (after : ids left = [])
      (todo : undispatched acting = id :: undispatched left) :
      RegistryChange state acting later left

variable {settings : Settings} {state later : State} {acting left : List Party}

theorem runTurn_registry {stage : RunStage} {outcome : Outcome}
    (timely : Timely state (.run stage) outcome)
    (taken : runTurn settings state stage outcome = some (later, left)) :
    RegistryChange state [.run stage] later left := by
  cases stage with
  | register slot =>
      simp only [runTurn] at taken
      split at taken
      next =>
        cases taken
        exact .quiet rfl ⟨rfl, rfl⟩ rfl rfl
      next id registry entered =>
        have available : state.registry.nextId ≠ 0 := by
          intro exhausted
          rw [ConnectionRegistry.registerClose, if_pos exhausted] at entered
          cases entered
        split at taken
        next =>
          cases taken
          exact .skip available rfl ⟨rfl, rfl⟩ rfl rfl rfl rfl
        next normal =>
          cases taken
          have early := timely (by simp [State.enters, normal, available])
          rw [ConnectionRegistry.registerClose, if_neg available] at entered
          cases entered
          exact .enter available rfl early ⟨rfl, rfl⟩ rfl rfl rfl rfl
  | unregister slot id =>
      simp only [runTurn] at taken
      cases taken
      exact .remove id rfl ⟨rfl, rfl⟩ rfl rfl rfl rfl
  | acquire current =>
      simp only [runTurn] at taken
      split at taken
      all_goals try split at taken
      all_goals
        cases taken
        exact .quiet rfl ⟨rfl, rfl⟩ rfl rfl
  | _ =>
      cases outcome <;> simp only [runTurn] at taken <;> try split at taken
      all_goals
        cases taken
        try exact .quiet rfl ⟨rfl, rfl⟩ rfl rfl

theorem connectionTurn_registry {slot : Nat} {id : UInt64} {stage : ConnectionStage}
    {outcome : Outcome}
    (taken : connectionTurn settings state slot id stage outcome = (later, left)) :
    RegistryChange state [.connection slot id stage] later left := by
  cases stage with
  | remove =>
      cases taken
      exact .remove id rfl ⟨rfl, rfl⟩ rfl rfl rfl rfl
  | _ =>
      cases outcome <;> simp only [connectionTurn] at taken <;> try split at taken
      all_goals
        cases taken
        exact .quiet rfl ⟨rfl, rfl⟩ rfl rfl

theorem forceStopTurn_registry {resume : Resume} {stage : StopStage}
    (taken : forceStopTurn state resume stage = (later, left)) :
    RegistryChange state [.forceStop resume stage] later left := by
  cases stage with
  | lock =>
      simp only [forceStopTurn] at taken
      split at taken <;> cases taken
      · exact .quiet rfl ⟨rfl, rfl⟩ (ids_rest resume) (undispatched_rest resume)
      · exact .quiet rfl ⟨rfl, rfl⟩ rfl rfl
  | dispatches tasks =>
      cases tasks
      all_goals
        cases taken
        exact .quiet rfl ⟨rfl, rfl⟩ rfl rfl
  | closeAll =>
      cases taken
      exact .sweep rfl rfl rfl rfl rfl rfl (List.append_nil _)
  | dispatch todo =>
      cases todo with
      | nil =>
          cases taken
          exact .quiet rfl ⟨rfl, rfl⟩ rfl rfl
      | cons id todo =>
          cases taken
          exact .dispatch id rfl rfl rfl rfl rfl rfl

theorem maybeFinishTurn_registry {resume : Resume} {stage : FinishStage}
    (taken : maybeFinishTurn state resume stage = (later, left)) :
    RegistryChange state [.maybeFinish resume stage] later left := by
  cases stage with
  | check =>
      simp only [maybeFinishTurn] at taken
      split at taken
      next =>
        cases taken
        exact .quiet rfl ⟨rfl, rfl⟩ rfl rfl
      next =>
        split at taken <;> cases taken
        · exact .quiet rfl ⟨rfl, rfl⟩ rfl rfl
        · exact .quiet rfl ⟨rfl, rfl⟩ (ids_rest resume) (undispatched_rest resume)
  | cancel present =>
      cases taken
      apply RegistryChange.quiet rfl ⟨rfl, rfl⟩
      · rw [ids_append, ids_tasks, ids_rest]
        rfl
      · rw [undispatched_append, undispatched_tasks, undispatched_rest]
        rfl
  | stop =>
      cases taken
      exact .quiet rfl ⟨rfl, rfl⟩ (ids_rest resume) (undispatched_rest resume)

theorem beginGracefulStopTurn_registry {stage : GracefulStage} {outcome : Outcome}
    (taken : beginGracefulStopTurn state stage outcome = (later, left)) :
    RegistryChange state [.beginGracefulStop stage] later left := by
  cases stage with
  | closeAcceptor acceptor scheduleDrainTimer =>
      cases taken
      apply RegistryChange.quiet rfl ⟨rfl, rfl⟩
      · rw [ids_append, ids_tasks]
        cases scheduleDrainTimer <;> rfl
      · rw [undispatched_append, undispatched_tasks]
        cases scheduleDrainTimer <;> rfl
  | check | lock =>
      simp only [beginGracefulStopTurn] at taken
      split at taken
      all_goals
        cases taken
        exact .quiet rfl ⟨rfl, rfl⟩ rfl rfl
  | spawn =>
      cases outcome
      all_goals
        cases taken
        exact .quiet rfl ⟨rfl, rfl⟩ rfl rfl

theorem drainTurn_registry {stage : DrainStage} {outcome : Outcome}
    (taken : drainTurn state stage outcome = some (later, left)) :
    RegistryChange state [.drain stage] later left := by
  unfold drainTurn at taken
  split at taken
  all_goals try split at taken
  all_goals
    cases taken
    try exact .quiet rfl ⟨rfl, rfl⟩ rfl rfl

theorem taskTurn_registry {task : Task} (taken : taskTurn state task = some (later, left)) :
    RegistryChange state [.task task] later left := by
  unfold taskTurn at taken
  split at taken
  all_goals try split at taken
  all_goals
    cases taken
    try exact .quiet rfl ⟨rfl, rfl⟩ rfl rfl

/-- What a change of a run that enters nothing too late does to what is registered. -/
theorem change_registry (change : (system settings).Change Timely state acting later left) :
    RegistryChange state acting later left := by
  cases change with
  | turn party outcome timely taken =>
      cases party with
      | run stage => exact runTurn_registry timely taken
      | connection slot id stage => exact connectionTurn_registry (Option.some.inj taken)
      | forceStop resume stage => exact forceStopTurn_registry (Option.some.inj taken)
      | maybeFinish resume stage => exact maybeFinishTurn_registry (Option.some.inj taken)
      | beginGracefulStop stage => exact beginGracefulStopTurn_registry (Option.some.inj taken)
      | completeDrainTimer resume =>
          cases taken
          exact .quiet rfl ⟨rfl, rfl⟩ rfl rfl
      | drain stage => exact drainTurn_registry taken
      | recordWorkerFailure =>
          cases taken
          exact .quiet rfl ⟨rfl, rfl⟩ rfl rfl
      | task task => exact taskTurn_registry taken
  | outside call taken =>
      cases call with
      | start =>
          change outside settings state .start = _ at taken
          simp only [outside] at taken
          split at taken <;> cases taken
          exact .quiet rfl ⟨rfl, rfl⟩ rfl rfl
      | forceStop | beginGracefulStop | deadline =>
          cases taken
          exact .quiet rfl ⟨rfl, rfl⟩ rfl rfl

/-- The ids of a multiset of parties. -/
def idsOf (parties : Multiset Party) : Multiset UInt64 := parties.bind fun party => ↑party.ids

theorem idsOf_coe (parties : List Party) : idsOf parties = ↑(ids parties) :=
  Multiset.coe_bind parties Party.ids

theorem idsOf_add (front back : Multiset Party) : idsOf (front + back) = idsOf front + idsOf back :=
  Multiset.add_bind ..

/-- What the calls of `CloseAll` in a multiset of parties have yet to dispatch. -/
def undispatchedOf (parties : Multiset Party) : Multiset UInt64 :=
  parties.bind fun party => ↑party.undispatched

theorem undispatchedOf_coe (parties : List Party) :
    undispatchedOf parties = ↑(undispatched parties) :=
  Multiset.coe_bind parties Party.undispatched

theorem undispatchedOf_add (front back : Multiset Party) :
    undispatchedOf (front + back) = undispatchedOf front + undispatchedOf back :=
  Multiset.add_bind ..

/-- Every id of a party is registered, or `CloseAll` has taken it. -/
structure Tracked (state : State) (ids todo : Multiset UInt64) : Prop where
  unique : ids.Nodup
  fresh : ∀ id ∈ ids, state.registry.nextId = 0 ∨ id < state.registry.nextId
  tracked : ∀ id ∈ ids, id ∈ state.registry.connections ∨ id ∈ state.dispatched ∨ id ∈ todo
  empty : state.swept = true → state.registry.connections = []

/-- An id is below the next one, or the ids are exhausted. -/
theorem below_succ {next id : UInt64} (below : id ≤ next) : next + 1 = 0 ∨ id < next + 1 := by
  rcases Nat.lt_or_ge (next.toNat + 1) (2 ^ 64) with fits | wraps
  · right
    rw [UInt64.lt_iff_toNat_lt, UInt64.toNat_add, UInt64.toNat_one, Nat.mod_eq_of_lt fits]
    exact Nat.lt_succ_of_le (UInt64.le_iff_toNat_le.mp below)
  · left
    have last : next.toNat + 1 = 2 ^ 64 := Nat.le_antisymm next.toNat_lt wraps
    apply UInt64.toNat_inj.mp
    rw [UInt64.toNat_add, UInt64.toNat_one, last]
    rfl

namespace Tracked

variable {others todo : Multiset UInt64}

theorem fresh_succ (tracked : Tracked state others todo) (available : state.registry.nextId ≠ 0) :
    ∀ id ∈ others, state.registry.nextId + 1 = 0 ∨ id < state.registry.nextId + 1 := by
  intro id listed
  rcases tracked.fresh id listed with exhausted | below
  · exact absurd exhausted available
  · exact below_succ (UInt64.le_of_lt below)

theorem change (tracked : Tracked state (↑(ids acting) + others) (↑(undispatched acting) + todo))
    (change : RegistryChange state acting later left) :
    Tracked later (↑(ids left) + others) (↑(undispatched left) + todo) := by
  cases change with
  | quiet registry unchanged same pending =>
      rw [same, pending]
      constructor
      · exact tracked.unique
      · rw [registry]
        exact tracked.fresh
      · rw [registry, unchanged.dispatched]
        exact tracked.tracked
      · rw [registry, unchanged.swept]
        exact tracked.empty
  | enter available registry early unchanged before after none pending =>
      rw [before, none, Multiset.coe_nil, zero_add, zero_add] at tracked
      rw [after, pending, Multiset.coe_nil, zero_add, Multiset.coe_singleton,
        Multiset.singleton_add]
      constructor
      · rw [Multiset.nodup_cons]
        refine ⟨fun used => ?_, tracked.unique⟩
        rcases tracked.fresh _ used with exhausted | below
        · exact available exhausted
        · exact absurd below (UInt64.lt_irrefl _)
      · rw [Multiset.forall_mem_cons, registry]
        exact ⟨below_succ (UInt64.le_refl _), fun id listed =>
          tracked.fresh_succ available id listed⟩
      · rw [Multiset.forall_mem_cons, registry, unchanged.dispatched]
        refine ⟨.inl List.mem_cons_self, fun id listed => ?_⟩
        exact (tracked.tracked id listed).imp_left (List.mem_cons_of_mem _)
      · rw [unchanged.swept, early]
        exact nofun
  | skip available registry unchanged before after none pending =>
      rw [before, none] at tracked
      rw [after, pending]
      constructor
      · exact tracked.unique
      · rw [registry]
        exact tracked.fresh_succ available
      · rw [registry, unchanged.dispatched]
        exact tracked.tracked
      · rw [registry, unchanged.swept]
        exact tracked.empty
  | remove removed registry unchanged before after none pending =>
      rw [before, none, Multiset.coe_nil, zero_add, Multiset.coe_singleton,
        Multiset.singleton_add] at tracked
      rw [after, pending, Multiset.coe_nil, zero_add, zero_add]
      rcases Multiset.nodup_cons.mp tracked.unique with ⟨unlisted, unique⟩
      constructor
      · exact unique
      · rw [registry]
        exact fun id listed => tracked.fresh id (Multiset.mem_cons_of_mem listed)
      · rw [registry, unchanged.dispatched]
        intro id listed
        rcases tracked.tracked id (Multiset.mem_cons_of_mem listed) with registered | taken
        · left
          have other : id ≠ removed := fun same => unlisted (same ▸ listed)
          exact List.mem_filter.mpr ⟨registered, decide_eq_true other⟩
        · exact .inr taken
      · rw [registry, unchanged.swept]
        intro swept
        rw [ConnectionRegistry.remove, tracked.empty swept]
        rfl
  | sweep registry dispatched swept before after none pending =>
      rw [before, none, Multiset.coe_nil, zero_add, zero_add] at tracked
      rw [after, pending, Multiset.coe_nil, zero_add]
      constructor
      · exact tracked.unique
      · rw [registry]
        exact tracked.fresh
      · rw [dispatched]
        intro id listed
        rcases tracked.tracked id listed with registered | taken | waits
        · exact .inr (.inr (Multiset.mem_add.mpr (.inl (Multiset.mem_coe.mpr registered))))
        · exact .inr (.inl taken)
        · exact .inr (.inr (Multiset.mem_add.mpr (.inr waits)))
      · rw [registry]
        exact fun _ => rfl
  | dispatch first registry dispatched swept before after pending =>
      rw [before, pending] at tracked
      rw [after]
      constructor
      · exact tracked.unique
      · rw [registry]
        exact tracked.fresh
      · rw [registry, dispatched]
        intro id listed
        rcases tracked.tracked id listed with registered | taken | waits
        · exact .inl registered
        · exact .inr (.inl (List.mem_cons_of_mem _ taken))
        · rw [← Multiset.cons_coe, Multiset.cons_add] at waits
          rcases Multiset.mem_cons.mp waits with rfl | waits
          · exact .inr (.inl List.mem_cons_self)
          · exact .inr (.inr waits)
      · rw [registry, swept]
        exact tracked.empty

end Tracked

theorem tracked_of_reaches {pool : Pool State Party}
    (reaches : (system settings).Reaches Timely initial pool) :
    Tracked pool.shared (idsOf pool.parties) (undispatchedOf pool.parties) := by
  apply reaches.invariant (fun _ _ => True)
    (fun state parties => Tracked state (idsOf parties) (undispatchedOf parties))
  · intros
    trivial
  · exact ⟨Multiset.nodup_zero, nofun, nofun, nofun⟩
  · intro state later acting left others changed _ _ tracked
    rw [idsOf_add, idsOf_coe, undispatchedOf_add, undispatchedOf_coe] at tracked ⊢
    exact tracked.change (change_registry changed)

/-- The entries of a started server have been taken, or a forced stop is on its way there. -/
def Stopping (state : State) (parties : Multiset Party) : Prop :=
  state.started = true ∧ (state.swept = true ∨ ∃ party ∈ parties, party.forceStops = true)

theorem RegistryChange.swept (change : RegistryChange state acting later left)
    (swept : state.swept = true) : later.swept = true := by
  cases change with
  | quiet _ unchanged | enter _ _ _ unchanged | skip _ _ unchanged | remove _ _ unchanged =>
      exact unchanged.swept.trans swept
  | sweep _ _ done => exact done
  | dispatch _ _ _ same => exact same.trans swept

theorem ForceStopTurned.stops {resume : Resume} {stage : StopStage}
    (turned : ForceStopTurned state resume stage later left) (started : state.started = true)
    (stops : (Party.forceStop resume stage).forceStops = true) :
    later.swept = true ∨ ∃ party ∈ left, party.forceStops = true := by
  cases turned with
  | unstarted unstarted =>
      rw [started] at unstarted
      cases unstarted
  | lock | dispatched => exact .inr ⟨_, List.mem_singleton_self _, rfl⟩
  | dispatch => exact .inr ⟨_, List.mem_cons_of_mem _ (List.mem_singleton_self _), rfl⟩
  | sweep => exact .inl rfl
  | swept | close => cases stops

/-- A forced stop goes on until it has taken the entries. -/
theorem Stopping.change {others : Multiset Party} (stopping : Stopping state (↑acting + others))
    (change : (system settings).Change Timely state acting later left) :
    Stopping later (↑left + others) := by
  rcases stopping with ⟨started, stops⟩
  constructor
  · cases change_lifecycle change with
    | start before =>
        rw [started] at before
        cases before
    | quiet kept | complete kept => exact kept.started.trans started
  · rcases stops with swept | ⟨party, member, stops⟩
    · exact .inl ((change_registry change).swept swept)
    · rcases Multiset.mem_add.mp member with acts | waits
      · cases change with
        | outside call taken => cases acts
        | turn actor outcome timely taken =>
            have same : party = actor := List.mem_singleton.mp (Multiset.mem_coe.mp acts)
            subst same
            cases party with
            | forceStop resume stage =>
                exact ((forceStopTurn_turned (Option.some.inj taken)).stops started stops).imp_right
                  fun ⟨next, inLeft, goesOn⟩ =>
                    ⟨next, Multiset.mem_add.mpr (.inl (Multiset.mem_coe.mpr inLeft)), goesOn⟩
            | _ => cases stops
      · exact .inr ⟨party, Multiset.mem_add.mpr (.inr waits), stops⟩

/-- A forced stop that is no longer under way has taken the entries. -/
theorem swept_of_forceStopping {called pool : Pool State Party} (stopping : ForceStopping called)
    (reaches : (system settings).Reaches Timely called pool)
    (done : ∀ resume stage, .forceStop resume stage ∉ pool.parties) : pool.shared.swept = true := by
  have stays : Stopping pool.shared pool.parties := by
    apply reaches.invariant (fun _ _ => True) Stopping (fun _ _ => trivial)
    · exact ⟨stopping.1, .inr stopping.2⟩
    · exact fun change _ _ stopping => stopping.change change
  rcases stays.2 with swept | ⟨party, member, stops⟩
  · exact swept
  · cases party with
    | forceStop resume stage => exact absurd (Multiset.mem_coe.mp member) (done resume stage)
    | _ => cases stops

/-- In a run in which nothing is entered into the registry after a forced stop has taken its
entries, a forced stop closes every connection. -/
theorem allClosed_of_timely {called pool : Pool State Party}
    (reaches : (system settings).Reaches Timely initial called) (stopping : ForceStopping called)
    (more : (system settings).Reaches Timely called pool) : AllClosed pool := by
  intro done _ party member id isOpen
  have swept := swept_of_forceStopping stopping more done
  have tracked := tracked_of_reaches (reaches.trans more)
  have listed : id ∈ idsOf pool.parties := by
    rw [idsOf_coe]
    refine Multiset.mem_coe.mpr (List.mem_flatMap.mpr ⟨party, member, ?_⟩)
    exact party.openIds_subset isOpen
  rcases tracked.tracked id listed with registered | dispatched | pending
  · rw [tracked.empty swept] at registered
    cases registered
  · exact dispatched
  · rw [undispatchedOf_coe] at pending
    rcases List.mem_flatMap.mp (Multiset.mem_coe.mp pending) with ⟨other, inPool, waits⟩
    cases other with
    | forceStop resume stage => exact absurd inPool (done resume stage)
    | _ => cases waits

/-- A forced stop is called while the first connection is served. -/
def callServing : List (Event Outcome Call) := acceptOne ++ [.outside .forceStop]

/-- The forced stop from its first to its last line. -/
def stopServing : List (Event Outcome Call) :=
  List.replicate 2 (.turn 2 .done) ++ List.replicate 5 (.turn 3 .done)

theorem allClosed_of_timely_example : ∃ called pool,
    callServing.foldlM ((system {}).meetingStep Timely) initial = some called ∧
      stopServing.foldlM ((system {}).meetingStep Timely) called = some pool ∧
      Party.connection 0 1 .begin ∈ pool.parties ∧ 1 ∈ pool.shared.dispatched := by
  let called : Pool State Party :=
    { serving with parties := serving.parties ++ [.forceStop .finished .lock] }
  let closed : Pool State Party :=
    { shared :=
        { serving.shared with
          stopping := true, forceStopRequested := true, acceptor := false, registry := ⟨[], 2⟩
          dispatched := [1], swept := true }
      parties := [.run .accept, .connection 0 1 .begin, .task .acceptorClose] }
  have first : callServing.foldlM ((system {}).meetingStep Timely) initial = some called := by
    decide +kernel
  have run : stopServing.foldlM ((system {}).meetingStep Timely) called = some closed := by
    decide +kernel
  have launched : Party.connection 0 1 .begin ∈ closed.parties := by decide
  have stopping : ForceStopping called :=
    ⟨rfl, .forceStop .finished .lock, List.mem_append_right _ (List.mem_singleton_self _), rfl⟩
  refine ⟨called, closed, first, run, launched, ?_⟩
  exact allClosed_of_timely (System.reaches_of_meeting _ first) stopping
    (System.reaches_of_meeting _ run) (by simp [closed]) (by decide) _ launched 1
    List.mem_cons_self

/-- The accept loop has looked at the stopping flag for the last time when a forced stop is
called. -/
def launchOne : List (Event Outcome Call) :=
  .outside .start :: List.replicate 9 (.turn 0 .done) ++ [.outside .forceStop]

/-- The forced stop, the rest of the launch, and the end of the accept loop. -/
def stopLaunching : List (Event Outcome Call) :=
  List.replicate 2 (.turn 1 .done) ++ List.replicate 4 (.turn 2 .done) ++
    List.replicate 4 (.turn 0 .done) ++ [.turn 2 .done, .turn 0 .aborted] ++
    List.replicate 3 (.turn 0 .done)

theorem unclosed_when_late :
    ¬∀ settings called pool, (system settings).Reachable initial called → ForceStopping called →
      (system settings).Reachable called pool → AllClosed pool := by
  intro allClosed
  let called : Pool State Party :=
    { shared :=
        { initial.shared with
          started := true, startComplete := true, acceptor := true, listening := true
          activeConnections := 1, acquired := 1 }
      parties := [.run (.construct 0), .forceStop .finished .lock] }
  let unclosed : Pool State Party :=
    { shared :=
        { serving.shared with
          stopping := true, forceStopRequested := true, runComplete := true, acceptor := false
          listening := false, swept := true }
      parties := [.connection 0 1 .begin] }
  have first : launchOne.foldlM (system {}).step initial = some called := by decide +kernel
  have run : stopLaunching.foldlM (system {}).step called = some unclosed := by decide +kernel
  have stopping : ForceStopping called :=
    ⟨rfl, .forceStop .finished .lock, List.mem_cons_of_mem _ (List.mem_singleton_self _), rfl⟩
  have closed := allClosed {} called unclosed (System.reaches_of_run first) stopping
    (System.reaches_of_run run) (by simp [unclosed]) (by decide) _ List.mem_cons_self 1
    List.mem_cons_self
  cases closed

end Wan.Web.Server
