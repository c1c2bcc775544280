import PadOS.Kernel.ProcessCalls

/-! # Consistency of the process tables

Over the runs in which no step takes the last process out of a group, no process is given up
once it has entered a group, and no group is given up once its session lists it, the tables say
the same of each process, group and session, and a node is kept as long as its ID is used and no
longer.
-/

namespace PadOS.Kernel.ProcessTables

open Function Registry Transition List Option

variable {s t : ProcessTables} {pid pgroup : Int} {h g σ self instigator parent current : Nat}
  {process : KProcess} {group target : KProcessGroup} {node : KPIDNode}

/-- No step takes the last process out of its group, or gives up a process or a group that is in a
list already. -/
def KeepsGroups : Condition ProcessTables PIDOp
  | s, .spawnProcess current flags memory =>
    ∀ pid t h parent, s.allocatePID = .ok (pid, t) → s.currentProcess current = some h →
      s.processes h = some parent → memory.process →
      memory.child ∧ t.Admits pid parent memory flags
  | s, .setpgid current inDest inGroup memory =>
    ∀ self target node, s.currentProcess current = some self →
      s.pgroupTarget self inDest inGroup = .ok target →
      s.pgroupNode target.1 self target.2 = .ok (some node) →
      s.SharesGroup target.1 ∧ (node.group = none → memory.group → memory.space)
  | s, .setsid current memory =>
    ∀ self node, s.currentProcess current = some self → s.sessionNode self = .ok node →
      s.SharesGroup self ∧ (memory.group → memory.space)
  | s, .exitThread current =>
    ∀ self process, s.currentProcess current = some self → s.processes self = some process →
      process.threads.erase current = [] → s.SharesGroup self
  | _, _ => True

/-! ## Calls -/

/-- `HandleExit`, behind the way of the process out of its group. -/
theorem handleExit_eq {left : ProcessTables} {exiting : KProcess}
    (found : s.processes self = some process) (inGroup : process.group = some g)
    (inSession : process.session = some σ)
    (removed : (if s.isSessionLeader process then s.disassociateControllingTTY σ else s).removeProcess
      g self = .ok left)
    (isSelf : (left.reparentChildren self process.children).processes self = some exiting) :
    s.handleExit self =
      let u := left.reparentChildren self process.children
      if exiting.parent.isSome then
        .ok (u.putProcess self (some { exiting with session := none, state := .zombie }))
      else
        (u.nodes exiting.pid).elim (.error .panics) fun node =>
          .ok (((u.putProcess self none).putNode exiting.pid
            (some { node with process := none })).erasePIDNodeIfEmpty exiting.pid) := by
  unfold handleExit
  simp only [found, inGroup, inSession, removed, Bind.bind, Except.bind, isSelf]
  cases (left.reparentChildren self process.children).nodes exiting.pid <;> rfl

section

variable (linked : Linked none none none s)

include linked

/-- A node that is erased again leaves the tables as they were. -/
theorem unallocated_linked (free : s.nodes pid = none) (nextPID : Int) :
    Linked none none none
      { s with nodes := update (update s.nodes pid (some { pid := pid })) pid none
               nextPID := nextPID } := by
  rw [update_idem, ← free, update_eq_self]
  exact ⟨linked.nodeID, linked.used, linked.processes, linked.threads, linked.groups,
    linked.sessions, linked.members, linked.listed, linked.homes, linked.occupied, linked.peopled,
    fun found => (linked.settled found).congr fun _ _ => rfl, linked.running, linked.fresh⟩

variable {memory : Memory}

theorem spawnThread_linked
    (spawned : s.spawnThread current memory = .ok t) : Linked none none none t := by
  unfold spawnThread at spawned
  split at spawned
  · cases spawned
  · rename_i pid u h allocated isCurrent
    rcases allocatePID_spec allocated with ⟨free, nextPID, rfl⟩
    cases created : memory.thread with
    | false =>
      rw [created, if_neg (by simp)] at spawned
      cases spawned
      exact unallocated_linked linked free nextPID
    | true =>
      rw [created, if_pos rfl] at spawned
      rcases linked.running isCurrent with ⟨process, found, _, isLive⟩
      have noThread : field (update s.nodes pid (some { pid := pid })) (·.thread) pid = none := by
        simp [field]
      exact newThread_spec (allocated_linked linked free nextPID) (fun _ same => (some.inj same).symm)
        (keys_of_absent fun _ _ found => no_process linked free found) found isLive noThread spawned
  · cases spawned

theorem spawnProcess_linked {flags : SpawnGroup}
    (meets : s.KeepsGroups (.spawnProcess current flags memory))
    (spawned : s.spawnProcess current flags memory = .ok t) : Linked none none none t := by
  unfold spawnProcess at spawned
  split at spawned
  · cases spawned
  · rename_i pid u parent allocated isCurrent
    rcases linked.running isCurrent with ⟨process, found, _, isLive⟩
    have may := meets pid u parent process allocated isCurrent found
    rcases allocatePID_spec allocated with ⟨free, nextPID, rfl⟩
    have isNode : update s.nodes pid (some { pid := pid }) pid = some { pid := pid } := update_self ..
    have ready := allocated_linked linked free nextPID
    cases object : memory.process with
    | false =>
      rw [newProcess_noObject ready found isLive object] at spawned
      cases spawned
      exact unallocated_linked linked free nextPID
    | true =>
      rcases may object with ⟨child, admits⟩
      split at spawned
      · cases spawned
      · rename_i v made
        rcases newProcess_spec ready isNode (fun _ _ found => no_process linked free found) found isLive
          object child admits made with ⟨_, _, impossible, _⟩
        cases impossible
      · rename_i v h made
        rcases newProcess_spec ready isNode (fun _ _ found => no_process linked free found) found isLive
          object child admits made with ⟨_, p, isMade, linked', found', isLive', noThread⟩
        cases isMade
        split at spawned
        · exact newThread_spec linked' (fun _ impossible => by cases impossible) rfl found' isLive'
            noThread spawned
        · cases spawned
  · cases spawned

variable {ended : Ended}

theorem setPGroupID_linked
    (may : ∀ node, s.pgroupNode self instigator pgroup = .ok (some node) →
      s.SharesGroup self ∧ (node.group = none → memory.group → memory.space))
    (moved : s.setPGroupID self instigator pgroup memory = .ok ended) :
    Linked none none none ended.tables := by
  cases checked : s.pgroupNode self instigator pgroup with
  | error stop =>
    unfold setPGroupID at moved
    rw [checked] at moved
    cases moved
  | ok found =>
    cases found with
    | none =>
      unfold setPGroupID at moved
      rw [checked] at moved
      cases moved
      exact linked
    | some node =>
      rcases may node checked with ⟨shares, reserved⟩
      rcases moveToGroup_spec linked checked shares with ⟨g, σ, t, applied, moves, linked', _⟩
      rw [applied, moves] at moved
      split at moved
      · cases moved
      · rename_i hasObject
        split at moved
        · cases moved
          exact linked'
        · rename_i noSpace
          split at moved
          · rename_i isNew
            have object : memory.group := by
              by_contra noObject
              exact hasObject ⟨isNew, by simpa using noObject⟩
            exact absurd (reserved (isNone_iff_eq_none.1 isNew) object) noSpace
          · cases moved

theorem setpgid_linked {inDest inGroup : Int}
    (meets : s.KeepsGroups (.setpgid current inDest inGroup memory))
    (moved : s.setpgid current inDest inGroup memory = .ok ended) :
    Linked none none none ended.tables := by
  unfold setpgid at moved
  split at moved
  · cases moved
  · rename_i self isCurrent
    cases isTarget : s.pgroupTarget self inDest inGroup with
    | error stop =>
      rw [isTarget] at moved
      cases moved
    | ok target =>
      rw [isTarget] at moved
      exact setPGroupID_linked linked (fun node checked => meets self target node isCurrent isTarget checked) moved

theorem setsid_linked
    (meets : s.KeepsGroups (.setsid current memory))
    (moved : s.setsid current memory = .ok ended) : Linked none none none ended.tables := by
  unfold setsid at moved
  split at moved
  · cases moved
  · rename_i self isCurrent
    cases checked : s.sessionNode self with
    | error stop =>
      unfold createSession at moved
      rw [checked] at moved
      cases moved
    | ok node =>
      rcases meets self node isCurrent checked with ⟨shares, reserved⟩
      rcases moveToSession_spec linked checked shares with ⟨g, pid, t, applied, moves, linked', _⟩
      rw [applied, moves] at moved
      split at moved
      · rename_i object
        rw [if_pos (reserved object)] at moved
        cases moved
        exact linked'
      · cases moved

theorem erasePIDNodeIfEmpty_eq (pid : Int) :
    s.erasePIDNodeIfEmpty pid = s := by
  unfold erasePIDNodeIfEmpty
  split
  · rfl
  · rename_i node isNode
    split
    · exact absurd (linked.used isNode ‹_›) (some_ne_none pid).symm
    · rfl

/-- The terminal and the foreground group of a session say nothing about its groups. -/
theorem modifySession_linked {change : KProcessSession → KProcessSession}
    (keeps : ∀ session, (change session).sessionID = session.sessionID ∧ (change session).groups = session.groups) :
    Linked none none none (s.modifySession σ change) := by
  unfold modifySession
  split
  · exact linked
  · rename_i session isSession
    constructor
    case nodeID => exact linked.nodeID
    case used => exact linked.used
    case processes => exact linked.processes
    case threads => exact linked.threads
    case groups => exact linked.groups
    case sessions =>
      show Named _ (field (update s.sessions σ _) _)
      rw [field_update_same (by simp [field, isSession, keeps])]
      exact linked.sessions
    case members => exact linked.members
    case listed =>
      show Enrolled (roll (update s.sessions σ _) _) _
      rw [roll_update_same (by simp [roll, isSession, keeps])]
      exact linked.listed
    case homes => exact linked.homes
    case occupied => exact linked.occupied
    case peopled =>
      intro σ' session' found empty
      rcases update_cases found with ⟨_, isNew⟩ | ⟨_, found⟩
      · cases isNew
        rw [(keeps session).2] at empty
        exact absurd (linked.peopled isSession empty) (some_ne_none σ).symm
      · exact linked.peopled found empty
    case settled => exact fun found => (linked.settled found).congr fun _ _ => rfl
    case running => exact linked.running
    case fresh =>
      intro ref young
      rcases linked.fresh young with ⟨noProcess, noThread, noGroup, noSession⟩
      have notSession : ref ≠ σ := fun same => by rw [same, isSession] at noSession; cases noSession
      exact ⟨noProcess, noThread, noGroup, (update_of_ne notSession ..).trans noSession⟩

theorem reapThread_linked {thread : Nat}
    (freed : s.reapThread thread = .ok t) : Linked none none none t := by
  unfold reapThread at freed
  split at freed
  · rename_i pid isThread
    split at freed
    · cases freed
    · rename_i node isNode
      cases freed
      rw [erase_put]
      exact threadReaped_linked linked isThread isNode
  · cases freed

theorem waitPID_linked (waited : s.waitPID current pid = .ok t) :
    Linked none none none t := by
  unfold waitPID at waited
  split at waited
  · cases waited
  · cases waited
  · rename_i self node isCurrent isNode
    split at waited
    · cases waited
    · rename_i child isChild
      split at waited
      · cases waited
      · rename_i process found
        split at waited
        · cases waited
        · split at waited
          · rename_i isZombie
            cases waited
            rcases linked.running isCurrent with ⟨parent, isParent, _, isLive⟩
            have other : child ≠ self := by
              intro same
              rw [same, isParent] at found
              cases found
              exact isLive isZombie
            have relabeled := relabel_linked linked
              (update s.processes self (some { parent with children := parent.children.erase child }))
              (by
                intro h
                by_cases same : h = self
                · rw [same, update_self, isParent]
                  rfl
                · rw [update_of_ne same])
            have found' : update s.processes self (some { parent with children := parent.children.erase child })
                child = some process := (update_of_ne other ..).trans found
            have sameID : node.pid = pid := linked.nodeID isNode
            subst sameID
            have reaped := reaped_linked relabeled isNode isChild found' isZombie
            unfold reapChild
            rw [erase_put, isParent]
            exact reaped
          · cases waited
            exact linked

/-! ## Exit -/

/-- Giving up the terminal changes a session, but not what is in it. -/
theorem disassociateControllingTTY_spec (σ : Nat)
    (processes : Nat → Option KProcess) :
    ∃ sessions, ({ s with processes := processes } : ProcessTables).disassociateControllingTTY σ =
        { s with processes := processes, sessions := sessions } ∧
      Linked none none none { s with sessions := sessions } := by
  unfold disassociateControllingTTY
  cases isSession : s.sessions σ with
  | none =>
    exact ⟨s.sessions, rfl, linked⟩
  | some session =>
    have changed : Linked none none none (s.modifySession σ fun session =>
        { session with controllingTTY := none, foregroundGroup := none }) :=
      modifySession_linked linked fun _ => ⟨rfl, rfl⟩
    unfold modifySession at changed
    rw [isSession] at changed
    by_cases noTTY : session.controllingTTY = none
    · exact ⟨s.sessions, if_pos noTTY, linked⟩
    · exact ⟨_, if_neg noTTY, changed⟩

/-- The last thread of a process exits, and the group of the process keeps another. -/
theorem handleExit_spec {handle : Int}
    (isThread : s.threads current = some { handle := handle, process := some self })
    (found : s.processes self = some process) (last : process.threads.erase current = [])
    (inGroup : process.group = some g) (isGroup : s.groups g = some group)
    (shared : ∃ h' ∈ group.processes, h' ≠ self)
    (exits : (s.putProcess self (some { process with threads := [] })).handleExit self = .ok t) :
    Linked none none none (t.putThread current (some { handle := handle, process := none })) := by
  rcases linked.session_isSome isGroup with ⟨σ, session, isHome, _, _⟩
  have inSession : process.session = some σ := (linked.session_of_group found inGroup isGroup).trans isHome
  rcases linked.group_mem found inGroup with ⟨group', isGroup', member⟩
  cases isGroup.symm.trans isGroup'
  obtain ⟨pid, state, parent, _, _, children, threads⟩ := process
  cases inGroup
  cases inSession
  let process : KProcess := ⟨pid, state, parent, some σ, some g, children, threads⟩
  let last' : ProcessTables := s.putProcess self (some { process with threads := [] })
  have left : ∃ sessions, (if last'.isSessionLeader { process with threads := [] }
        then last'.disassociateControllingTTY σ else last') =
        { s with processes := update s.processes self (some { process with threads := [] }), sessions := sessions } ∧
      Linked none none none { s with sessions := sessions } := by
    split
    · exact disassociateControllingTTY_spec linked σ _
    · exact ⟨s.sessions, rfl, linked⟩
  rcases left with ⟨sessions, isLeft, linked'⟩
  have exited := exited_linked linked' isThread found last rfl isGroup shared
  let gone : KProcess := { process with threads := [], group := none }
  let u : ProcessTables := { s with
    sessions := sessions
    processes := fun ref => (update s.processes self (some gone) ref).map (reparented self children ref)
    groups := update s.groups g (some { group with processes := group.processes.erase self }) }
  have isSelf : u.processes self = some (reparented self children self gone) := by
    show (update s.processes self (some gone) self).map _ = _
    rw [update_self]
    rfl
  have applied : last'.handleExit self = (if (reparented self children self gone).parent.isSome then
        .ok (u.putProcess self
          (some { reparented self children self gone with session := none, state := .zombie }))
      else
        (u.nodes pid).elim (.error .panics) fun node =>
          .ok (((u.putProcess self none).putNode pid
            (some { node with process := none })).erasePIDNodeIfEmpty pid)) := by
    have here : last'.processes self = some { process with threads := [] } := update_self ..
    have removed := removeProcess_eq (s := { s with
      processes := update s.processes self (some { process with threads := [] }), sessions := sessions })
      (update_self ..) rfl isGroup member shared
    simp only [update_idem] at removed
    rw [← isLeft] at removed
    exact handleExit_eq here rfl rfl removed isSelf
  change last'.handleExit self = .ok t at exits
  rw [applied] at exits
  let zombie : KProcess := { reparented self children self gone with session := none, state := .zombie }
  have relabeled := relabel_linked exited (update u.processes self (some zombie)) (by
    intro h
    show _ = (update s.processes self _ h).map core
    by_cases same : h = self
    · rw [same, update_self, update_self]
      rfl
    · rw [update_of_ne same, update_of_ne same]
      show ((update s.processes self (some gone) h).map (reparented self children h)).map core = _
      rw [update_of_ne same, Option.map_map]
      rfl)
  by_cases hasParent : (reparented self children self gone).parent.isSome
  · rw [if_pos hasParent] at exits
    cases exits
    exact relabeled
  · rw [if_neg hasParent] at exits
    cases isNode : s.nodes pid with
    | none =>
      have noNode : u.nodes pid = none := isNode
      rw [noNode] at exits
      cases exits
    | some node =>
      have isNode' : u.nodes pid = some node := isNode
      have key : field s.processes (keyOf none) self = some pid := by simp [field, found, keyOf]
      have isChild : node.process = some self := by
        have slot := (linked.processes pid self).2 key
        simpa [field, isNode] using slot
      have forgotten := reaped_linked relabeled isNode isChild (update_self ..) rfl
      unfold reaped at forgotten
      simp only [update_idem] at forgotten
      rw [isNode'] at exits
      cases exits
      rw [erase_put]
      exact forgotten

theorem exitThread_linked (meets : s.KeepsGroups (.exitThread current))
    (exits : s.exitThread current = .ok t) : Linked none none none t := by
  unfold exitThread at exits
  split at exits
  · rename_i handle self isThread
    have isCurrent : s.currentProcess current = some self := by
      rw [currentProcess, isThread]
      rfl
    split at exits
    · cases exits
    · rename_i process found
      by_cases last : process.threads.erase current = []
      · rcases meets self process isCurrent found last with
          ⟨process', g, group, found', inGroup, isGroup, shared⟩
        cases found.symm.trans found'
        rw [last, if_pos rfl] at exits
        cases exited : (s.putProcess self (some { process with threads := [] })).handleExit self with
        | error stop =>
          rw [exited] at exits
          cases exits
        | ok u =>
          rw [exited] at exits
          cases exits
          exact handleExit_spec linked isThread found last inGroup isGroup shared exited
      · rw [if_neg last] at exits
        cases exits
        exact threadGone_linked linked isThread found
  · cases exits

/-! ## Runs -/

omit linked in
theorem tables_of_map {result : Except Stop Ended} (left : result.map Ended.tables = .ok t) :
    ∃ ended, result = .ok ended ∧ ended.tables = t := by
  cases result with
  | error stop => cases left
  | ok ended =>
    cases left
    exact ⟨ended, rfl, rfl⟩

theorem call_linked {op : PIDOp} (meets : s.KeepsGroups op)
    (called : s.call op = .ok t) : Linked none none none t := by
  cases op with
  | spawnThread current memory => exact spawnThread_linked linked called
  | spawnProcess current flags memory => exact spawnProcess_linked linked meets called
  | setpgid current inDest inGroup memory =>
    rcases tables_of_map called with ⟨ended, moved, rfl⟩
    exact setpgid_linked linked meets moved
  | setsid current memory =>
    rcases tables_of_map called with ⟨ended, moved, rfl⟩
    exact setsid_linked linked meets moved
  | exitThread current => exact exitThread_linked linked meets called
  | reapThread thread => exact reapThread_linked linked called
  | waitPID current pid => exact waitPID_linked linked called
  | erasePIDNodeIfEmpty pid =>
    cases called
    rw [erasePIDNodeIfEmpty_eq linked pid]
    exact linked
  | setForegroundGroup session group | setControllingTTY session inode =>
    cases called
    exact modifySession_linked linked fun _ => ⟨rfl, rfl⟩

end

theorem step_linked {op : PIDOp} (linked : Linked none none none s) (meets : s.KeepsGroups op)
    (applies : s.step op = some t) : Linked none none none t := by
  unfold step at applies
  split at applies
  · cases applies
    exact call_linked linked meets ‹_›
  · cases applies
    exact linked
  · cases applies

theorem initial_linked : Linked none none none initial := by
  constructor
  case nodeID => grind [initial]
  case used => grind [initial, KPIDNode.isEmpty]
  case processes => grind [Named, field, keyOf, initial]
  case threads => grind [Named, field, initial]
  case groups => grind [Named, field, initial]
  case sessions => grind [Named, field, initial]
  case members =>
    constructor
    · grind [field, roll, initial]
    · grind [field, roll, initial]
  case listed =>
    constructor
    · grind [field, roll, initial]
    · grind [field, roll, initial]
  case homes => grind [initial]
  case occupied => grind [initial]
  case peopled => grind [initial]
  case settled =>
    intro h process found
    constructor
    · grind [initial, KProcess.isLive]
    · grind [field, initial]
  case running =>
    intro t h current
    have both : (t = 0 ∨ t = 1) ∧ h = 0 := by grind [currentProcess, initial]
    rcases both with ⟨rfl | rfl, rfl⟩
    · exact ⟨_, rfl, by simp, KProcessState.noConfusion⟩
    · exact ⟨_, rfl, by simp, KProcessState.noConfusion⟩
  case fresh => grind [initial]

theorem reaches_linked (run : pidSystem.Reaches KeepsGroups initial s) : Linked none none none s :=
  run.invariant (Linked none none none) initial_linked step_linked

/-! ## Consistency -/

/-- The group with this ID has a process. -/
def LiveGroup (s : ProcessTables) (pid : Int) : Prop :=
  ∃ g group, s.groups g = some group ∧ group.groupID = pid ∧ group.processes ≠ []

/-- A live process is in the session with this ID. -/
def LiveSession (s : ProcessTables) (pid : Int) : Prop :=
  ∃ σ session h process, s.sessions σ = some session ∧ session.sessionID = pid ∧
    s.processes h = some process ∧ process.isLive ∧ process.session = some σ

/-- The ID of a process, a thread, a live group or a live session. -/
def UsedID (s : ProcessTables) (pid : Int) : Prop :=
  (∃ h process, s.processes h = some process ∧ process.pid = pid) ∨
    (∃ t thread, s.threads t = some thread ∧ thread.handle = pid) ∨ s.LiveGroup pid ∨ s.LiveSession pid

structure Consistent (s : ProcessTables) : Prop where
  group_of_process : ∀ h process, s.processes h = some process → process.isLive →
    ∃ g group, process.group = some g ∧ s.groups g = some group ∧ h ∈ group.processes ∧
      process.session.isSome ∧ group.session = process.session ∧
      ∀ g' group', s.groups g' = some group' → h ∈ group'.processes → g' = g
  processes_of_group : ∀ g group, s.groups g = some group → group.processes.Nodup ∧
    ∀ h ∈ group.processes, ∃ process, s.processes h = some process ∧ process.isLive ∧ process.group = some g
  listed_iff : ∀ g group, s.groups g = some group →
    ∃ σ session, group.session = some σ ∧ s.sessions σ = some session ∧
      (g ∈ session.groups ↔ group.processes ≠ [])
  groups_of_session : ∀ σ session, s.sessions σ = some session →
    ∀ g ∈ session.groups, ∃ group, s.groups g = some group ∧ group.session = some σ
  node_group_iff : ∀ pid, (∃ node, s.nodes pid = some node ∧ node.group.isSome) ↔ s.LiveGroup pid
  node_group : ∀ pid node g, s.nodes pid = some node → node.group = some g →
    ∃ group, s.groups g = some group ∧ group.groupID = pid ∧ group.processes ≠ []
  node_session_iff : ∀ pid, (∃ node, s.nodes pid = some node ∧ node.session.isSome) ↔ s.LiveSession pid
  node_session : ∀ pid node σ, s.nodes pid = some node → node.session = some σ →
    ∃ session, s.sessions σ = some session ∧ session.sessionID = pid
  node_iff : ∀ pid, (s.nodes pid).isSome ↔ s.UsedID pid

/-- What a slot of a node refers to says the same of the ID. -/
theorem slot_iff {β : Type} {table : Nat → Option β} {key : β → Option Int}
    {slot : KPIDNode → Option Nat} {ref : Nat}
    (named : Named (field s.nodes slot) (field table key)) :
    (∃ node, s.nodes pid = some node ∧ slot node = some ref) ↔
      ∃ x, table ref = some x ∧ key x = some pid := by
  rw [← bind_eq_some_iff, ← bind_eq_some_iff]
  exact named pid ref

section

variable (linked : Linked none none none s)

include linked

theorem Linked.node_group (isNode : s.nodes pid = some node)
    (isGroup : node.group = some g) :
    ∃ group, s.groups g = some group ∧ group.groupID = pid ∧ group.processes ≠ [] := by
  rcases (slot_iff linked.groups).1 ⟨node, isNode, isGroup⟩ with ⟨group, found, isID⟩
  exact ⟨group, found, some.inj isID, fun empty =>
    absurd (linked.occupied found empty) (some_ne_none g).symm⟩

/-- A session has a group, and the group has a process. -/
theorem Linked.node_session (isNode : s.nodes pid = some node)
    (isSession : node.session = some σ) :
    (∃ session, s.sessions σ = some session ∧ session.sessionID = pid) ∧ s.LiveSession pid := by
  rcases (slot_iff linked.sessions).1 ⟨node, isNode, isSession⟩ with ⟨session, found, isID⟩
  have isID := some.inj isID
  refine ⟨⟨session, found, isID⟩, ?_⟩
  have notBare : session.groups ≠ [] := fun empty =>
    absurd (linked.peopled found empty) (some_ne_none σ).symm
  rcases exists_mem_of_ne_nil _ notBare with ⟨g, member⟩
  have member' : g ∈ roll s.sessions (·.groups) σ := by simpa [roll, found] using member
  rcases bind_eq_some_iff.1 ((linked.listed.mem_iff g σ).1 member') with ⟨group, isGroup, inSession⟩
  have notVacant : group.processes ≠ [] := fun empty =>
    absurd (linked.occupied isGroup empty) (some_ne_none g).symm
  rcases exists_mem_of_ne_nil _ notVacant with ⟨h, member⟩
  rcases linked.mem_group isGroup member with ⟨process, found', inGroup⟩
  refine ⟨σ, session, h, process, found, isID, found', ?_, ?_⟩
  · rw [(linked.settled found').live_iff, inGroup]
    rfl
  · rw [linked.session_of_group found' inGroup isGroup, inSession]

theorem Linked.consistent : s.Consistent where
  group_of_process := by
    intro h process found isLive
    rcases isSome_iff_exists.1 ((linked.settled found).live_iff.1 isLive) with ⟨g, inGroup⟩
    rcases linked.group_mem found inGroup with ⟨group, isGroup, member⟩
    have sameSession := linked.session_of_group found inGroup isGroup
    refine ⟨g, group, inGroup, isGroup, member, ?_, sameSession.symm, ?_⟩
    · rw [sameSession]
      exact linked.homes isGroup
    · intro g' group' isGroup' member'
      rcases linked.mem_group isGroup' member' with ⟨process', found', inGroup'⟩
      cases found.symm.trans found'
      exact some.inj (inGroup'.symm.trans inGroup)
  processes_of_group := by
    intro g group isGroup
    have nodup := linked.members.nodup g
    simp only [roll, isGroup, elim_some] at nodup
    refine ⟨nodup, ?_⟩
    intro h member
    rcases linked.mem_group isGroup member with ⟨process, found, inGroup⟩
    refine ⟨process, found, ?_, inGroup⟩
    rw [(linked.settled found).live_iff, inGroup]
    rfl
  listed_iff := by
    intro g group isGroup
    rcases linked.session_isSome isGroup with ⟨σ, session, inSession, isSession, member⟩
    refine ⟨σ, session, inSession, isSession, fun _ empty => ?_, fun _ => member⟩
    exact absurd (linked.occupied isGroup empty) (some_ne_none g).symm
  groups_of_session := by
    intro σ session isSession g member
    have member' : g ∈ roll s.sessions (·.groups) σ := by simpa [roll, isSession] using member
    exact bind_eq_some_iff.1 ((linked.listed.mem_iff g σ).1 member')
  node_group_iff := by
    intro pid
    constructor
    · rintro ⟨node, isNode, isSome⟩
      rcases isSome_iff_exists.1 isSome with ⟨g, isGroup⟩
      exact ⟨g, linked.node_group isNode isGroup⟩
    · rintro ⟨g, group, isGroup, isID, _⟩
      rcases (slot_iff linked.groups).2 ⟨group, isGroup, congrArg some isID⟩ with
        ⟨node, isNode, isGroup'⟩
      exact ⟨node, isNode, by rw [isGroup']; rfl⟩
  node_group := fun _ _ _ isNode isGroup => linked.node_group isNode isGroup
  node_session_iff := by
    intro pid
    constructor
    · rintro ⟨node, isNode, isSome⟩
      rcases isSome_iff_exists.1 isSome with ⟨σ, isSession⟩
      exact (linked.node_session isNode isSession).2
    · rintro ⟨σ, session, _, _, isSession, isID, _⟩
      rcases (slot_iff linked.sessions).2 ⟨session, isSession, congrArg some isID⟩ with
        ⟨node, isNode, isSession'⟩
      exact ⟨node, isNode, by rw [isSession']; rfl⟩
  node_session := fun _ _ _ isNode isSession => (linked.node_session isNode isSession).1
  node_iff := by
    intro pid
    have kept {slot : KPIDNode → Option Nat} {ref : Nat}
        (found : ∃ node, s.nodes pid = some node ∧ slot node = some ref) : (s.nodes pid).isSome := by
      rcases found with ⟨node, isNode, _⟩
      rw [isNode]
      rfl
    constructor
    · intro isSome
      rcases isSome_iff_exists.1 isSome with ⟨node, isNode⟩
      cases isThread : node.thread with
      | some t =>
        rcases (slot_iff linked.threads).1 ⟨node, isNode, isThread⟩ with ⟨thread, found, isID⟩
        exact .inr (.inl ⟨t, thread, found, some.inj isID⟩)
      | none =>
        cases isProcess : node.process with
        | some h =>
          rcases (slot_iff linked.processes).1 ⟨node, isNode, isProcess⟩ with ⟨process, found, isID⟩
          exact .inl ⟨h, process, found, some.inj isID⟩
        | none =>
          cases isGroup : node.group with
          | some g => exact .inr (.inr (.inl ⟨g, linked.node_group isNode isGroup⟩))
          | none =>
            cases isSession : node.session with
            | some σ => exact .inr (.inr (.inr (linked.node_session isNode isSession).2))
            | none =>
              have empty : node.isEmpty := by
                simp [KPIDNode.isEmpty, isThread, isProcess, isGroup, isSession]
              exact absurd (linked.used isNode empty) (some_ne_none pid).symm
    · rintro (⟨h, process, found, isID⟩ | ⟨t, thread, found, isID⟩ | ⟨g, group, found, isID, _⟩ |
        ⟨σ, session, _, _, found, isID, _⟩)
      · exact kept ((slot_iff linked.processes).2 ⟨process, found, congrArg some isID⟩)
      · exact kept ((slot_iff linked.threads).2 ⟨thread, found, congrArg some isID⟩)
      · exact kept ((slot_iff linked.groups).2 ⟨group, found, congrArg some isID⟩)
      · exact kept ((slot_iff linked.sessions).2 ⟨session, found, congrArg some isID⟩)

end

theorem tables_consistent (s : ProcessTables) (run : pidSystem.Reaches KeepsGroups initial s) :
    s.Consistent :=
  (reaches_linked run).consistent

/-! ## A process in a group of its own -/

def enough : Memory := ⟨true, true, true, true, true⟩

/-- `init` starts a process in a group of its own. -/
def ownGroup : PIDOp := .spawnProcess 1 (.setPGroup 0) enough

/-- The group is made for the node of the new process. -/
theorem ownGroup_meets : initial.KeepsGroups ownGroup := by
  intro pid t h parent allocated _ _ _
  rcases allocatePID_spec allocated with ⟨_, nextPID, rfl⟩
  refine ⟨rfl, .inr ⟨{ pid := pid }, ?_, (fun _ impossible => by cases impossible), fun _ => rfl, rfl⟩⟩
  exact update_self ..

theorem ownGroup_consistent : ∃ t, initial.step ownGroup = some t ∧ t.LiveGroup 2 ∧ t.Consistent := by
  have made : (initial.step ownGroup).map (fun t => (t.groups 3).map fun group => (group.groupID, group.processes)) =
      some (some (2, [2])) := by decide +kernel
  rcases map_eq_some_iff.1 made with ⟨t, applies, isGroup⟩
  rcases map_eq_some_iff.1 isGroup with ⟨group, isGroup, isOwn⟩
  have run : pidSystem.Reaches KeepsGroups initial t := .single ownGroup_meets applies
  refine ⟨t, applies, ⟨3, group, isGroup, congrArg Prod.fst isOwn, ?_⟩, tables_consistent t run⟩
  rw [show group.processes = [2] from congrArg Prod.snd isOwn]
  exact cons_ne_nil _ _

/-! ## A group that is joined after its last process has left -/

/-- `init` starts a process in a group of its own and one in the group of the kernel. The
first exits, and the second asks for its group. -/
def rejoinOps : List PIDOp :=
  [ownGroup, .spawnProcess 1 .inherit enough, .exitThread 4, .setpgid 6 0 2 enough]

theorem tables_inconsistent : ¬∀ s, pidSystem.Reaches anyStep initial s → s.Consistent := by
  intro always
  have after : (pidSystem.after initial rejoinOps).map (fun t =>
      ((t.groups 3).map fun group => (group.session, group.processes), (t.sessions 0).map (·.groups))) =
        some (some (some 0, [5]), some [0]) := by decide +kernel
  rcases map_eq_some_iff.1 after with ⟨t, after, rejoined⟩
  rcases map_eq_some_iff.1 (congrArg Prod.fst rejoined) with ⟨group, isGroup, isStale⟩
  rcases map_eq_some_iff.1 (congrArg Prod.snd rejoined) with ⟨session, isSession, notListed⟩
  rcases (always t (System.reaches_after after)).listed_iff 3 group isGroup with
    ⟨σ, session', inSession, isSession', listed⟩
  cases inSession.symm.trans (congrArg Prod.fst isStale)
  cases isSession.symm.trans isSession'
  have notEmpty : group.processes ≠ [] := by
    rw [show group.processes = [5] from congrArg Prod.snd isStale]
    exact cons_ne_nil _ _
  have member := listed.2 notEmpty
  rw [notListed] at member
  simp at member

end PadOS.Kernel.ProcessTables
