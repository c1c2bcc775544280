import PadOS.Kernel.ProcessTables

/-! # Links between the process tables

What the nodes, the processes, the groups and the sessions say of each other. In the
middle of a call some of it does not hold yet: a node has been made for a process that
is still under construction, or a group has been made and its first process has not
joined it.
-/

namespace PadOS.Kernel

open Function Registry List Option

def KProcess.isLive (process : KProcess) : Prop := process.state ≠ .zombie

namespace ProcessTables

variable {s t : ProcessTables} {building : Option Int} {vacant bare : Option Nat} {pid pid' : Int}
  {h h' g g' σ ref : Nat} {process : KProcess} {group target : KProcessGroup} {node : KPIDNode}

/-- The ID under which a process is found: none while it is under construction. -/
def keyOf (building : Option Int) (process : KProcess) : Option Int :=
  if building = some process.pid then none else some process.pid

/-- A live process is in a group of its own session, a zombie in none. -/
structure Settled (s : ProcessTables) (process : KProcess) : Prop where
  live_iff : process.isLive ↔ process.group.isSome
  session_eq : process.session = process.group.bind (field s.groups (·.session))

/-- `building` is the ID of a process under construction, `vacant` a group without processes and
`bare` a session without groups. -/
structure Linked (building : Option Int) (vacant bare : Option Nat) (s : ProcessTables) : Prop where
  nodeID : ∀ {pid node}, s.nodes pid = some node → node.pid = pid
  used : ∀ {pid node}, s.nodes pid = some node → node.isEmpty → building = some pid
  processes : Named (field s.nodes (·.process)) (field s.processes (keyOf building))
  threads : Named (field s.nodes (·.thread)) (field s.threads fun thread => some thread.handle)
  groups : Named (field s.nodes (·.group)) (field s.groups fun group => some group.groupID)
  sessions : Named (field s.nodes (·.session)) (field s.sessions fun session => some session.sessionID)
  members : Enrolled (roll s.groups (·.processes)) (field s.processes (·.group))
  listed : Enrolled (roll s.sessions (·.groups)) (field s.groups (·.session))
  homes : ∀ {g group}, s.groups g = some group → group.session.isSome
  occupied : ∀ {g group}, s.groups g = some group → group.processes = [] → vacant = some g
  peopled : ∀ {σ session}, s.sessions σ = some session → session.groups = [] → bare = some σ
  settled : ∀ {h process}, s.processes h = some process → s.Settled process
  running : ∀ {t h}, s.currentProcess t = some h →
    ∃ process, s.processes h = some process ∧ t ∈ process.threads ∧ process.isLive
  fresh : ∀ {ref}, s.nextRef ≤ ref → s.processes ref = none ∧ s.threads ref = none ∧
    s.groups ref = none ∧ s.sessions ref = none

namespace Linked

/-! ## What the links say -/

section

variable (linked : Linked building vacant bare s)

include linked

theorem group_mem (found : s.processes h = some process) (inGroup : process.group = some g) :
    ∃ group, s.groups g = some group ∧ h ∈ group.processes := by
  have owner : field s.processes (·.group) h = some g := by simp [field, found, inGroup]
  have member := (linked.members.mem_iff h g).2 owner
  cases isGroup : s.groups g with
  | none => simp [roll, isGroup] at member
  | some group => exact ⟨group, rfl, by simpa [roll, isGroup] using member⟩

theorem mem_group (isGroup : s.groups g = some group)
    (member : h ∈ group.processes) : ∃ process, s.processes h = some process ∧ process.group = some g := by
  have member' : h ∈ roll s.groups (·.processes) g := by simpa [roll, isGroup] using member
  have owner := (linked.members.mem_iff h g).1 member'
  exact bind_eq_some_iff.1 owner

theorem session_isSome (isGroup : s.groups g = some group) :
    ∃ σ session, group.session = some σ ∧ s.sessions σ = some session ∧ g ∈ session.groups := by
  rcases isSome_iff_exists.1 (linked.homes isGroup) with ⟨σ, home⟩
  have owner : field s.groups (·.session) g = some σ := by simp [field, isGroup, home]
  have member := (linked.listed.mem_iff g σ).2 owner
  cases isSession : s.sessions σ with
  | none => simp [roll, isSession] at member
  | some session => exact ⟨σ, session, home, isSession, by simpa [roll, isSession] using member⟩

theorem session_of_group (found : s.processes h = some process)
    (inGroup : process.group = some g) (isGroup : s.groups g = some group) :
    process.session = group.session := by
  rw [(linked.settled found).session_eq, inGroup]
  simp [field, isGroup]

variable {node' : KPIDNode}

theorem nodeID_put (isNode : s.nodes pid = some node)
    {v : Option KPIDNode} (same : ∀ node', v = some node' → node'.pid = node.pid) (found : update s.nodes pid v pid' = some node') : node'.pid = pid' := by
  refine update_all (P := fun k n => n.pid = k) linked.nodeID (fun node' isNew => ?_) found
  exact (same node' isNew).trans (linked.nodeID isNode)

theorem used_update {v : Option KPIDNode}
    (inUse : ∀ node, v = some node → node.isEmpty = false)
    (found : update s.nodes pid v pid' = some node') (empty : node'.isEmpty) : building = some pid' := by
  rcases update_cases found with ⟨_, isNew⟩ | ⟨_, found⟩
  · rw [inUse node' isNew] at empty
    cases empty
  · exact linked.used found empty

theorem used_filled (spare : ∀ id, building = some id → id = pid)
    {v : KPIDNode} (inUse : v.isEmpty = false)
    (found : update s.nodes pid (some v) pid' = some node') (empty : node'.isEmpty) : none = some pid' := by
  rcases update_cases found with ⟨_, isNew⟩ | ⟨other, found⟩
  · cases isNew
    rw [inUse] at empty
    cases empty
  · exact absurd (spare pid' (linked.used found empty)) other

theorem homes_put (isGroup : s.groups g = some group)
    (same : target.session = group.session) {g' : Nat} {group' : KProcessGroup}
    (found : update s.groups g (some target) g' = some group') : group'.session.isSome := by
  refine update_all linked.homes (fun _ isNew => ?_) found
  cases isNew
  rw [same]
  exact linked.homes isGroup

theorem running_put (found : s.processes h = some process)
    {process' : KProcess} {t : Nat} (keeps : t ∈ process.threads → t ∈ process'.threads)
    (stays : process.isLive → process'.isLive) (current : s.currentProcess t = some h') :
    ∃ p, update s.processes h (some process') h' = some p ∧ t ∈ p.threads ∧ p.isLive := by
  rcases linked.running current with ⟨p, found', runs, isLive⟩
  by_cases same : h' = h
  · rw [same, found] at found'
    cases found'
    rw [same]
    exact ⟨process', update_self .., keeps runs, stays isLive⟩
  · exact ⟨p, (update_of_ne same ..).trans found', runs, isLive⟩

end

end Linked

theorem currentProcess_update {thread : Nat} {v : Option KThreadCB} (idle : v.bind (·.process) = none)
    {t : Nat} (current : field (update s.threads thread v) (·.process) t = some h) :
    t ≠ thread ∧ s.currentProcess t = some h := by
  rw [field_update, idle] at current
  have other : t ≠ thread := by
    intro same
    rw [same, update_self] at current
    cases current
  rw [update_of_ne other] at current
  exact ⟨other, current⟩

theorem Settled.congr (settled : s.Settled process) (same : ∀ g, process.group = some g →
    field t.groups (·.session) g = field s.groups (·.session) g) : t.Settled process := by
  refine ⟨settled.live_iff, ?_⟩
  rw [settled.session_eq]
  cases inGroup : process.group with
  | none => rfl
  | some g => exact (same g inGroup).symm

/-! ## Changes -/

/-- A process goes over from its group to one of a session that becomes its own. -/
def transfer (s : ProcessTables) (h : Nat) (process : KProcess) (g : Nat) (group : KProcessGroup)
    (g' : Nat) (target : KProcessGroup) : ProcessTables :=
  { s with
    processes := update s.processes h (some { process with group := some g', session := target.session })
    groups := update (update s.groups g (some { group with processes := group.processes.erase h })) g'
      (some { target with processes := target.processes ++ [h] }) }

theorem transfer_linked (linked : Linked building vacant bare s) (found : s.processes h = some process)
    (inGroup : process.group = some g) (isGroup : s.groups g = some group)
    (isTarget : s.groups g' = some target) (differ : g' ≠ g) (shared : ∃ h' ∈ group.processes, h' ≠ h)
    (filled : ∀ v, vacant = some v → v = g') :
    Linked building none bare (s.transfer h process g group g' target) := by
  have sameSession : field (s.transfer h process g group g' target).groups (·.session) =
      field s.groups (·.session) := by
    show field (update (update s.groups g _) g' _) _ = _
    rw [field_update_same, field_update_same]
    · simp [field, isGroup]
    · simp [field, update_of_ne differ, isTarget]
  have isLive := (linked.settled found).live_iff.2 (by simp [inGroup])
  exact { linked with
    processes := linked.processes.right_same (by simp [field, found, keyOf])
    groups := (linked.groups.right_same (by simp [field, isGroup])).right_same
      (by simp [field, update_of_ne differ, isTarget])
    members := by
      show Enrolled (roll (update (update s.groups g _) g' _) _) (field (update s.processes h _) _)
      have owned : field s.processes (·.group) h = some g := by simp [field, found, inGroup]
      have left : update (field s.processes (·.group)) h none h = none := update_self ..
      have joined := (linked.members.leave owned).join left g'
      have inGroup' : roll s.groups (·.processes) g = group.processes := by simp [roll, isGroup]
      have inTarget : roll s.groups (·.processes) g' = target.processes := by simp [roll, isTarget]
      rw [update_idem, update_of_ne differ, inGroup', inTarget] at joined
      rw [roll_update, roll_update, field_update]
      exact joined
    listed := by
      rw [sameSession]
      exact linked.listed
    homes := by
      intro g'' group'' found''
      rcases update_cases found'' with ⟨_, same⟩ | ⟨_, found''⟩
      · cases same
        have home : target.session.isSome := linked.homes isTarget
        exact home
      · exact linked.homes_put isGroup (by rfl) found''
    occupied := by
      intro g'' group'' found'' empty
      rcases update_cases found'' with ⟨_, same⟩ | ⟨notTarget, found''⟩
      · cases same
        simp at empty
      · rcases update_cases found'' with ⟨_, same⟩ | ⟨_, found''⟩
        · cases same
          rcases shared with ⟨h', member', other⟩
          have stays : h' ∈ group.processes.erase h := (mem_erase_of_ne other).2 member'
          have isEmpty : group.processes.erase h = [] := empty
          simp [isEmpty] at stays
        · exact absurd (filled g'' (linked.occupied found'' empty)) notTarget
    settled := by
      intro h'' process'' found''
      rcases update_cases found'' with ⟨_, same⟩ | ⟨_, found''⟩
      · cases same
        refine ⟨⟨fun _ => rfl, fun _ => isLive⟩, ?_⟩
        rw [sameSession]
        simp [field, isTarget]
      · exact (linked.settled found'').congr fun _ _ => congrFun sameSession _
    running := linked.running_put found id id
    fresh := by
      intro ref unborn
      rcases linked.fresh unborn with ⟨noProcess, noThread, noGroup, noSession⟩
      exact ⟨update_absent noProcess found, noThread,
        update_absent (update_absent noGroup isGroup) ((update_of_ne differ ..).trans isTarget), noSession⟩ }

/-- A group is made for a node that has none. -/
def withGroup (s : ProcessTables) (pid : Int) (node : KPIDNode) (σ : Nat) (session : KProcessSession) :
    ProcessTables :=
  { s with
    nodes := update s.nodes pid (some { node with group := some s.nextRef })
    groups := update s.groups s.nextRef (some { groupID := pid, session := some σ })
    sessions := update s.sessions σ (some { session with groups := session.groups ++ [s.nextRef] })
    nextRef := s.nextRef + 1 }

theorem withGroup_linked (linked : Linked building none bare s) (isNode : s.nodes pid = some node)
    (noGroup : node.group = none) {session : KProcessSession} (isSession : s.sessions σ = some session)
    (filled : ∀ v, bare = some v → v = σ) :
    Linked building (some s.nextRef) none (s.withGroup pid node σ session) := by
  have unborn := (linked.fresh (Nat.le_refl s.nextRef)).2.2.1
  have noField {β : Type} (f : KProcessGroup → Option β) : field s.groups f s.nextRef = none := by
    simp [field, unborn]
  exact { linked with
    nodeID := linked.nodeID_put isNode (by rintro _ ⟨⟩; rfl)
    used := linked.used_update (by rintro _ ⟨⟩; simp [KPIDNode.isEmpty])
    processes := linked.processes.left_same (by simp [field, isNode])
    threads := linked.threads.left_same (by simp [field, isNode])
    groups := by
      show Named (field (update s.nodes pid _) _) (field (update s.groups s.nextRef _) _)
      rw [field_update, field_update]
      exact linked.groups.insert (by simp [field, isNode, noGroup]) (noField _)
    sessions := (linked.sessions.left_same (by simp [field, isNode])).right_same
      (by simp [field, isSession])
    members := linked.members.left_same (by simp [roll, unborn])
    listed := by
      show Enrolled (roll (update s.sessions σ _) _) (field (update s.groups s.nextRef _) _)
      have joined := linked.listed.join (noField _) σ
      have inSession : roll s.sessions (·.groups) σ = session.groups := by simp [roll, isSession]
      rw [inSession] at joined
      rw [roll_update, field_update]
      exact joined
    homes := update_all linked.homes (by rintro _ ⟨⟩; rfl)
    occupied := by
      intro g group found empty
      rcases update_cases found with ⟨same, _⟩ | ⟨_, found⟩
      · rw [same]
      · exact absurd (linked.occupied found empty) (some_ne_none g).symm
    peopled := by
      intro σ' session' found empty
      rcases update_cases found with ⟨_, isNew⟩ | ⟨other, found⟩
      · cases isNew
        simp at empty
      · exact absurd (filled σ' (linked.peopled found empty)) other
    settled := by
      intro h process found
      apply (linked.settled found).congr
      intro g inGroup
      rcases linked.group_mem found inGroup with ⟨group, isGroup, _⟩
      have old : g ≠ s.nextRef := fun same => by rw [same, unborn] at isGroup; cases isGroup
      show field (update s.groups s.nextRef _) _ g = _
      rw [field_update, update_of_ne old]
    fresh := by
      intro ref young
      rcases linked.fresh (Nat.le_of_succ_le young) with ⟨noProcess, noThread, noGroup, noSession⟩
      exact ⟨noProcess, noThread, (update_of_ne (Nat.ne_of_gt young) ..).trans noGroup,
        update_absent noSession isSession⟩ }

/-- A session is made for a node that has none. -/
def withSession (s : ProcessTables) (pid : Int) (node : KPIDNode) : ProcessTables :=
  { s with
    nodes := update s.nodes pid (some { node with session := some s.nextRef })
    sessions := update s.sessions s.nextRef (some { sessionID := pid })
    nextRef := s.nextRef + 1 }

theorem withSession_linked (linked : Linked building none none s) (isNode : s.nodes pid = some node)
    (noSession : node.session = none) :
    Linked building none (some s.nextRef) (s.withSession pid node) := by
  have unborn := (linked.fresh (Nat.le_refl s.nextRef)).2.2.2
  exact { linked with
    nodeID := linked.nodeID_put isNode (by rintro _ ⟨⟩; rfl)
    used := linked.used_update (by rintro _ ⟨⟩; simp [KPIDNode.isEmpty])
    processes := linked.processes.left_same (by simp [field, isNode])
    threads := linked.threads.left_same (by simp [field, isNode])
    groups := linked.groups.left_same (by simp [field, isNode])
    sessions := by
      show Named (field (update s.nodes pid _) _) (field (update s.sessions s.nextRef _) _)
      rw [field_update, field_update]
      exact linked.sessions.insert (by simp [field, isNode, noSession]) (by simp [field, unborn])
    listed := linked.listed.left_same (by simp [roll, unborn])
    peopled := by
      intro σ' session' found empty
      rcases update_cases found with ⟨same, _⟩ | ⟨_, found⟩
      · rw [same]
      · exact absurd (linked.peopled found empty) (some_ne_none σ').symm
    settled := fun found => (linked.settled found).congr fun _ _ => rfl
    fresh := by
      intro ref young
      rcases linked.fresh (Nat.le_of_succ_le young) with ⟨noProcess, noThread, noGroup, noSession⟩
      exact ⟨noProcess, noThread, noGroup, (update_of_ne (Nat.ne_of_gt young) ..).trans noSession⟩ }

/-! ## Creation -/

/-- The process under construction joins the group of its parent. -/
def entered (s : ProcessTables) (pid : Int) (parent g : Nat) (group : KProcessGroup) : ProcessTables :=
  { s with
    processes := update s.processes s.nextRef
      (some { pid := pid, parent := some parent, session := group.session, group := some g })
    groups := update s.groups g (some { group with processes := group.processes ++ [s.nextRef] })
    nextRef := s.nextRef + 1 }

theorem entered_linked (linked : Linked (some pid) none none s) (isGroup : s.groups g = some group)
    (parent : Nat) : Linked (some pid) none none (s.entered pid parent g group) := by
  have unborn := (linked.fresh (Nat.le_refl s.nextRef)).1
  have noField {β : Type} (f : KProcess → Option β) : field s.processes f s.nextRef = none := by
    simp [field, unborn]
  have sameSession : field (s.entered pid parent g group).groups (·.session) =
      field s.groups (·.session) := by
    apply field_update_same
    simp [field, isGroup]
  exact { linked with
    processes := linked.processes.right_same (by simp [noField, keyOf])
    groups := linked.groups.right_same (by simp [field, isGroup])
    members := by
      show Enrolled (roll (update s.groups g _) _) (field (update s.processes s.nextRef _) _)
      have joined := linked.members.join (noField _) g
      have inGroup : roll s.groups (·.processes) g = group.processes := by simp [roll, isGroup]
      rw [inGroup] at joined
      rw [roll_update, field_update]
      exact joined
    listed := by
      rw [sameSession]
      exact linked.listed
    homes := linked.homes_put isGroup (by rfl)
    occupied := by
      intro g' group' found empty
      rcases update_cases found with ⟨_, isNew⟩ | ⟨_, found⟩
      · cases isNew
        simp at empty
      · exact linked.occupied found empty
    settled := by
      intro h process found
      rcases update_cases found with ⟨_, isNew⟩ | ⟨_, found⟩
      · cases isNew
        refine ⟨by simp [KProcess.isLive], ?_⟩
        rw [sameSession]
        simp [field, isGroup]
      · exact (linked.settled found).congr fun _ _ => congrFun sameSession _
    running := by
      intro t h current
      rcases linked.running current with ⟨process, found, runs, isLive⟩
      have old : h ≠ s.nextRef := fun same => by rw [same, unborn] at found; cases found
      exact ⟨process, (update_of_ne old ..).trans found, runs, isLive⟩
    fresh := by
      intro ref young
      rcases linked.fresh (Nat.le_of_succ_le young) with ⟨noProcess, noThread, noGroup, noSession⟩
      exact ⟨(update_of_ne (Nat.ne_of_gt young) ..).trans noProcess, noThread,
        update_absent noGroup isGroup, noSession⟩ }

/-- What the links say about: a process without its family. -/
def core (process : KProcess) : KProcess := { process with parent := none, children := [] }

theorem relabel_linked (linked : Linked building vacant bare s) (processes : Nat → Option KProcess)
    (same : ∀ h, (processes h).map core = (s.processes h).map core) :
    Linked building vacant bare { s with processes := processes } := by
  have sameField {β : Type} (f : KProcess → Option β) (ofCore : ∀ p, f (core p) = f p) :
      field processes f = field s.processes f := by
    funext h
    have bindCore (o : Option KProcess) : o.bind f = (o.map core).bind f := by
      cases o with
      | none => rfl
      | some p => exact (ofCore p).symm
    rw [field, field, bindCore, same h, ← bindCore]
  exact { linked with
    processes := by
      rw [sameField _ fun _ => rfl]
      exact linked.processes
    members := by
      rw [sameField _ fun _ => rfl]
      exact linked.members
    settled := by
      intro h process found
      have found' : processes h = some process := found
      have old : (s.processes h).map core = some (core process) := by rw [← same h, found']; rfl
      rcases map_eq_some_iff.1 old with ⟨process', isOld, sameCore⟩
      have settled := linked.settled isOld
      have sameState : (core process').state = (core process).state := congrArg KProcess.state sameCore
      have sameGroup : (core process').group = (core process).group := congrArg KProcess.group sameCore
      have sameSession : (core process').session = (core process).session := congrArg KProcess.session sameCore
      constructor
      · show (core process).state ≠ .zombie ↔ (core process).group.isSome
        rw [← sameState, ← sameGroup]
        exact settled.live_iff
      · show (core process).session = (core process).group.bind _
        rw [← sameSession, ← sameGroup]
        exact settled.session_eq
    running := by
      intro t h current
      rcases linked.running current with ⟨process', isOld, runs, isLive⟩
      have new : (processes h).map core = some (core process') := by rw [same h, isOld]; rfl
      rcases map_eq_some_iff.1 new with ⟨process, found, sameCore⟩
      have sameThreads : (core process).threads = (core process').threads :=
        congrArg KProcess.threads sameCore
      have sameState : (core process).state = (core process').state := congrArg KProcess.state sameCore
      refine ⟨process, found, ?_, ?_⟩
      · show t ∈ (core process).threads
        rw [sameThreads]
        exact runs
      · show (core process).state ≠ .zombie
        rw [sameState]
        exact isLive
    fresh := by
      intro ref young
      rcases linked.fresh young with ⟨noProcess, others⟩
      have new := same ref
      rw [noProcess, map_none, map_eq_none_iff] at new
      exact ⟨new, others⟩ }

/-- The process under construction gets its node. -/
def named (s : ProcessTables) (pid : Int) (node : KPIDNode) (h : Nat) : ProcessTables :=
  { s with nodes := update s.nodes pid (some { node with process := some h }) }

theorem named_linked (linked : Linked (some pid) none none s) (isNode : s.nodes pid = some node)
    (noProcess : node.process = none) (found : s.processes h = some process) (samePID : process.pid = pid)
    (unique : ∀ h' p, s.processes h' = some p → p.pid = pid → h' = h) :
    Linked none none none (s.named pid node h) := by
  have hidden : field s.processes (keyOf (some pid)) h = none := by simp [field, found, keyOf, samePID]
  have keys : field s.processes (keyOf none) = update (field s.processes (keyOf (some pid))) h (some pid) := by
    funext h'
    by_cases same : h' = h
    · simp [same, field, found, keyOf, samePID]
    · rw [update_of_ne same]
      cases found' : s.processes h' with
      | none => simp [field, found']
      | some p =>
        have other : pid ≠ p.pid := fun samePID' => same (unique h' p found' samePID'.symm)
        simp [field, found', keyOf, other]
  exact { linked with
    nodeID := linked.nodeID_put isNode (by rintro _ ⟨⟩; rfl)
    used := linked.used_filled (fun _ same => (some.inj same).symm) (by simp [KPIDNode.isEmpty])
    processes := by
      show Named (field (update s.nodes pid _) _) (field s.processes _)
      rw [field_update, keys]
      exact linked.processes.insert (by simp [field, isNode, noProcess]) hidden
    threads := linked.threads.left_same (by simp [field, isNode])
    groups := linked.groups.left_same (by simp [field, isNode])
    sessions := linked.sessions.left_same (by simp [field, isNode])
    settled := fun found => (linked.settled found).congr fun _ _ => rfl }

/-- A node gets its thread, which belongs to a process. -/
def withThread (s : ProcessTables) (pid : Int) (node : KPIDNode) (h : Nat) (process : KProcess) :
    ProcessTables :=
  { s with
    nodes := update s.nodes pid (some { node with thread := some s.nextRef })
    processes := update s.processes h (some { process with threads := process.threads ++ [s.nextRef] })
    threads := update s.threads s.nextRef (some { handle := pid, process := some h })
    nextRef := s.nextRef + 1 }

theorem withThread_linked (linked : Linked building none none s) (isNode : s.nodes pid = some node)
    (noThread : node.thread = none) (found : s.processes h = some process) (isLive : process.isLive)
    (spare : ∀ id, building = some id → id = pid)
    (keys : field s.processes (keyOf building) = field s.processes (keyOf none)) :
    Linked none none none (s.withThread pid node h process) := by
  have unborn := (linked.fresh (Nat.le_refl s.nextRef)).2.1
  exact { linked with
    nodeID := linked.nodeID_put isNode (by rintro _ ⟨⟩; rfl)
    used := linked.used_filled spare (by simp [KPIDNode.isEmpty])
    processes := (keys ▸ linked.processes).left_same (by simp [field, isNode]) |>.right_same
      (by simp [field, found, keyOf])
    threads := by
      show Named (field (update s.nodes pid _) _) (field (update s.threads s.nextRef _) _)
      rw [field_update, field_update]
      exact linked.threads.insert (by simp [field, isNode, noThread]) (by simp [field, unborn])
    groups := linked.groups.left_same (by simp [field, isNode])
    sessions := linked.sessions.left_same (by simp [field, isNode])
    members := linked.members.right_same (by simp [field, found])
    settled := by
      intro h' process' found'
      rcases update_cases found' with ⟨_, isNew⟩ | ⟨_, found'⟩
      · cases isNew
        exact ⟨(linked.settled found).live_iff, (linked.settled found).session_eq⟩
      · exact (linked.settled found').congr fun _ _ => rfl
    running := by
      intro t h' current
      rcases bind_eq_some_iff.1 current with ⟨thread, isThread, runsIn⟩
      rcases update_cases isThread with ⟨isNew, same⟩ | ⟨_, isThread⟩
      · cases same
        cases runsIn
        refine ⟨_, update_self .., ?_, isLive⟩
        simp [isNew]
      · exact linked.running_put found (mem_append_left _) id
          (bind_eq_some_iff.2 ⟨_, isThread, runsIn⟩)
    fresh := by
      intro ref young
      rcases linked.fresh (Nat.le_of_succ_le young) with ⟨noProcess, noThread, noGroup, noSession⟩
      exact ⟨update_absent noProcess found, (update_of_ne (Nat.ne_of_gt young) ..).trans noThread,
        noGroup, noSession⟩ }

/-! ## Exit -/

/-- A thread leaves a process that has others. -/
def threadGone (s : ProcessTables) (t : Nat) (pid : Int) (h : Nat) (process : KProcess) : ProcessTables :=
  { s with
    processes := update s.processes h (some { process with threads := process.threads.erase t })
    threads := update s.threads t (some { handle := pid, process := none }) }

theorem threadGone_linked {t : Nat} (linked : Linked none none none s)
    (isThread : s.threads t = some { handle := pid, process := some h })
    (found : s.processes h = some process) :
    Linked none none none (s.threadGone t pid h process) := by
  exact { linked with
    processes := linked.processes.right_same (by simp [field, found, keyOf])
    threads := linked.threads.right_same (by simp [field, isThread])
    members := linked.members.right_same (by simp [field, found])
    settled := by
      intro h' process' found'
      rcases update_cases found' with ⟨_, isNew⟩ | ⟨_, found'⟩
      · cases isNew
        exact ⟨(linked.settled found).live_iff, (linked.settled found).session_eq⟩
      · exact (linked.settled found').congr fun _ _ => rfl
    running := by
      intro t' h' current
      rcases currentProcess_update rfl current with ⟨other, current'⟩
      exact linked.running_put found (mem_erase_of_ne other).2 id current'
    fresh := by
      intro ref young
      rcases linked.fresh young with ⟨noProcess, noThread, others⟩
      exact ⟨update_absent noProcess found, update_absent noThread isThread, others⟩ }

/-- The last thread leaves its process, which becomes a zombie. -/
def exited (s : ProcessTables) (t : Nat) (pid : Int) (h : Nat) (process : KProcess) (g : Nat)
    (group : KProcessGroup) : ProcessTables :=
  { s with
    processes := update s.processes h
      (some { process with group := none, session := none, state := .zombie, threads := [] })
    groups := update s.groups g (some { group with processes := group.processes.erase h })
    threads := update s.threads t (some { handle := pid, process := none }) }

theorem exited_linked {t : Nat} (linked : Linked none none none s)
    (isThread : s.threads t = some { handle := pid, process := some h })
    (found : s.processes h = some process) (last : process.threads.erase t = [])
    (inGroup : process.group = some g) (isGroup : s.groups g = some group)
    (shared : ∃ h' ∈ group.processes, h' ≠ h) :
    Linked none none none (s.exited t pid h process g group) := by
  have sameSession : field (s.exited t pid h process g group).groups (·.session) =
      field s.groups (·.session) := by
    apply field_update_same
    simp [field, isGroup]
  exact { linked with
    processes := linked.processes.right_same (by simp [field, found, keyOf])
    threads := linked.threads.right_same (by simp [field, isThread])
    groups := linked.groups.right_same (by simp [field, isGroup])
    members := by
      show Enrolled (roll (update s.groups g _) _) (field (update s.processes h _) _)
      have owned : field s.processes (·.group) h = some g := by simp [field, found, inGroup]
      have left := linked.members.leave owned
      have inGroup' : roll s.groups (·.processes) g = group.processes := by simp [roll, isGroup]
      rw [inGroup'] at left
      rw [roll_update, field_update]
      exact left
    listed := by
      rw [sameSession]
      exact linked.listed
    homes := linked.homes_put isGroup (by rfl)
    occupied := by
      intro g' group' found' empty
      rcases update_cases found' with ⟨_, isNew⟩ | ⟨_, found'⟩
      · cases isNew
        rcases shared with ⟨h', member', other⟩
        have stays : h' ∈ group.processes.erase h := (mem_erase_of_ne other).2 member'
        have isEmpty : group.processes.erase h = [] := empty
        simp [isEmpty] at stays
      · exact linked.occupied found' empty
    settled := by
      intro h' process' found'
      rcases update_cases found' with ⟨_, isNew⟩ | ⟨_, found'⟩
      · cases isNew
        exact ⟨by simp [KProcess.isLive], rfl⟩
      · exact (linked.settled found').congr fun _ _ => congrFun sameSession _
    running := by
      intro t' h' current
      rcases currentProcess_update rfl current with ⟨other, current'⟩
      rcases linked.running current' with ⟨process', found', runs, isLive⟩
      have notLast : h' ≠ h := by
        intro same
        rw [same, found] at found'
        cases found'
        have stays : t' ∈ process.threads.erase t := (mem_erase_of_ne other).2 runs
        simp [last] at stays
      exact ⟨process', (update_of_ne notLast ..).trans found', runs, isLive⟩
    fresh := by
      intro ref young
      rcases linked.fresh young with ⟨noProcess, noThread, noGroup, noSession⟩
      exact ⟨update_absent noProcess found, update_absent noThread isThread,
        update_absent noGroup isGroup, noSession⟩ }

/-! ## Reaping -/

/-- A node that is kept while something has its ID. -/
def trimmed (node : KPIDNode) : Option KPIDNode := if node.isEmpty then none else some node

theorem trimmed_bind {β : Type} (f : KPIDNode → Option β) (ofEmpty : node.isEmpty → f node = none) :
    (trimmed node).bind f = f node := by
  unfold trimmed
  split
  · exact (ofEmpty ‹_›).symm
  · rfl

theorem isEmpty_spec (empty : node.isEmpty) :
    node.thread = none ∧ node.process = none ∧ node.group = none ∧ node.session = none := by
  simpa [KPIDNode.isEmpty, Bool.and_eq_true, and_assoc] using empty

theorem erase_put (s : ProcessTables) (pid : Int) (node : KPIDNode) :
    (s.putNode pid (some node)).erasePIDNodeIfEmpty pid = s.putNode pid (trimmed node) := by
  unfold erasePIDNodeIfEmpty trimmed
  have here : (s.putNode pid (some node)).nodes pid = some node := update_self ..
  rw [here]
  show (if node.isEmpty then (s.putNode pid (some node)).putNode pid none else s.putNode pid (some node)) = _
  split
  · simp only [putNode, update_idem]
  · rfl

theorem trimmed_spec (isTrimmed : trimmed node = some node') : node' = node ∧ node.isEmpty = false := by
  unfold trimmed at isTrimmed
  by_cases empty : node.isEmpty
  · rw [if_pos empty] at isTrimmed
    cases isTrimmed
  · rw [if_neg empty] at isTrimmed
    cases isTrimmed
    exact ⟨rfl, Bool.eq_false_iff.2 empty⟩

theorem trimmed_field {β : Type} {f : KPIDNode → Option β} (isNode : s.nodes pid = some node)
    (same : f node' = f node) (ofEmpty : node'.isEmpty → f node' = none) :
    (trimmed node').bind f = field s.nodes f pid := by
  rw [trimmed_bind f ofEmpty, same]
  simp [field, isNode]

theorem nodeID_trimmed (linked : Linked building vacant bare s) (isNode : s.nodes pid = some node)
    (same : node'.pid = node.pid) {n : KPIDNode}
    (found : update s.nodes pid (trimmed node') pid' = some n) : n.pid = pid' :=
  linked.nodeID_put isNode (fun _ isTrimmed => (congrArg _ (trimmed_spec isTrimmed).1).trans same) found

theorem used_trimmed (linked : Linked building vacant bare s) {n : KPIDNode}
    (found : update s.nodes pid (trimmed node') pid' = some n) (empty : n.isEmpty) :
    building = some pid' := by
  refine linked.used_update (fun _ isTrimmed => ?_) found empty
  rw [(trimmed_spec isTrimmed).1]
  exact (trimmed_spec isTrimmed).2

/-- A zombie is forgotten. -/
def reaped (s : ProcessTables) (pid : Int) (node : KPIDNode) (h : Nat) : ProcessTables :=
  { s with
    nodes := update s.nodes pid (trimmed { node with process := none })
    processes := update s.processes h none }

theorem reaped_linked (linked : Linked none none none s) (isNode : s.nodes pid = some node)
    (isChild : node.process = some h) (found : s.processes h = some process)
    (isZombie : process.state = .zombie) : Linked none none none (s.reaped pid node h) := by
  have noGroup : process.group = none := by
    have settled := (linked.settled found).live_iff
    simpa [KProcess.isLive, isZombie] using settled
  exact { linked with
    nodeID := nodeID_trimmed linked isNode (by rfl)
    used := used_trimmed linked
    processes := by
      show Named (field (update s.nodes pid _) _) (field (update s.processes h _) _)
      rw [field_update, field_update, trimmed_bind _ fun _ => rfl]
      exact linked.processes.remove (by simp [field, isNode, isChild])
    threads := linked.threads.left_same (trimmed_field isNode rfl fun empty => (isEmpty_spec empty).1)
    groups := linked.groups.left_same (trimmed_field isNode rfl fun empty => (isEmpty_spec empty).2.2.1)
    sessions := linked.sessions.left_same (trimmed_field isNode rfl fun empty => (isEmpty_spec empty).2.2.2)
    members := linked.members.right_same (by simp [field, found, noGroup])
    settled := by
      intro h' process' found'
      rcases update_cases found' with ⟨_, isNew⟩ | ⟨_, found'⟩
      · cases isNew
      · exact (linked.settled found').congr fun _ _ => rfl
    running := by
      intro t h' current
      rcases linked.running current with ⟨process', found', runs, isLive⟩
      have other : h' ≠ h := by
        intro same
        rw [same, found] at found'
        cases found'
        exact isLive isZombie
      exact ⟨process', (update_of_ne other ..).trans found', runs, isLive⟩
    fresh := by
      intro ref young
      rcases linked.fresh young with ⟨noProcess, others⟩
      exact ⟨update_absent noProcess found, others⟩ }

/-- A thread that has exited is forgotten. -/
def threadReaped (s : ProcessTables) (pid : Int) (node : KPIDNode) (t : Nat) : ProcessTables :=
  { s with
    nodes := update s.nodes pid (trimmed { node with thread := none })
    threads := update s.threads t none }

theorem threadReaped_linked {t : Nat} (linked : Linked none none none s)
    (isThread : s.threads t = some { handle := pid, process := none }) (isNode : s.nodes pid = some node) :
    Linked none none none (s.threadReaped pid node t) := by
  exact { linked with
    nodeID := nodeID_trimmed linked isNode (by rfl)
    used := used_trimmed linked
    processes := linked.processes.left_same (trimmed_field isNode rfl fun empty => (isEmpty_spec empty).2.1)
    threads := by
      show Named (field (update s.nodes pid _) _) (field (update s.threads t _) _)
      have key : field s.threads (fun thread => some thread.handle) t = some pid := by simp [field, isThread]
      rw [field_update, field_update, trimmed_bind _ fun _ => rfl]
      exact linked.threads.remove ((linked.threads pid t).2 key)
    groups := linked.groups.left_same (trimmed_field isNode rfl fun empty => (isEmpty_spec empty).2.2.1)
    sessions := linked.sessions.left_same (trimmed_field isNode rfl fun empty => (isEmpty_spec empty).2.2.2)
    settled := fun found => (linked.settled found).congr fun _ _ => rfl
    running := fun current => linked.running (currentProcess_update rfl current).2
    fresh := by
      intro ref young
      rcases linked.fresh young with ⟨noProcess, noThread, others⟩
      exact ⟨noProcess, update_absent noThread isThread, others⟩ }

end ProcessTables

end PadOS.Kernel
