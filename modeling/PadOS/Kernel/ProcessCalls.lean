import PadOS.Kernel.ProcessLinks

/-! # Calls that keep the links

A call that takes the last process out of its group leaves the group in its node, and a
process that cannot be finished stays in the list of its parent's group. The calls that
do neither keep the tables linked.
-/

namespace PadOS.Kernel.ProcessTables

open Function Registry Option

variable {s t : ProcessTables} {building : Option Int} {pid pgroup : Int}
  {h h' g g' σ self instigator parent current : Nat} {process : KProcess} {group target : KProcessGroup}
  {node : KPIDNode}

/-- The process is not the last one of its group. -/
def SharesGroup (s : ProcessTables) (h : Nat) : Prop :=
  ∃ process g group, s.processes h = some process ∧ process.group = some g ∧ s.groups g = some group ∧
    ∃ h' ∈ group.processes, h' ≠ h

/-- What is neither about groups nor about sessions stays. -/
structure SameProcesses (s t : ProcessTables) : Prop where
  threads : t.threads = s.threads
  process : ∀ {h p}, t.processes h = some p →
    ∃ p', s.processes h = some p' ∧ p.pid = p'.pid ∧ p.state = p'.state
  isSome : ∀ h, (t.processes h).isSome = (s.processes h).isSome

theorem SameProcesses.refl (s : ProcessTables) : s.SameProcesses s :=
  ⟨rfl, fun found => ⟨_, found, rfl, rfl⟩, fun _ => rfl⟩

/-! ## Moving a process -/

section

variable (found : s.processes h = some process) (inGroup : process.group = some g)
  (isGroup : s.groups g = some group)

include found inGroup isGroup

/-- `RemoveProcess`, where the group keeps a process. -/
theorem removeProcess_eq
    (member : h ∈ group.processes)
    (shared : ∃ h' ∈ group.processes, h' ≠ h) :
    s.removeProcess g h = .ok { s with
      processes := update s.processes h (some { process with group := none })
      groups := update s.groups g (some { group with processes := group.processes.erase h }) } := by
  rcases shared with ⟨h', member', other⟩
  have stays : h' ∈ group.processes.erase h := (List.mem_erase_of_ne other).2 member'
  have notEmpty : group.processes.erase h ≠ [] := List.ne_nil_of_mem stays
  unfold removeProcess
  simp only [isGroup, found, inGroup, ne_eq, not_true_eq_false, if_false, member, if_true, notEmpty]
  cases group.session with
  | none => rfl
  | some σ => rfl

/-- `RemoveProcess` and `AddProcess`, where the group keeps a process. -/
theorem move_eq
    (isTarget : s.groups g' = some target) (differ : g' ≠ g)
    (member : h ∈ group.processes) (shared : ∃ h' ∈ group.processes, h' ≠ h) :
    (do let t ← s.removeProcess g h
        t.addProcess g' h) = .ok { s with
      processes := update s.processes h (some { process with group := some g' })
      groups := update (update s.groups g (some { group with processes := group.processes.erase h })) g'
        (some { target with processes := target.processes ++ [h] }) } := by
  have isTarget' : update s.groups g (some { group with processes := group.processes.erase h }) g' =
      some target := (update_of_ne differ ..).trans isTarget
  rw [removeProcess_eq found inGroup isGroup member shared]
  show addProcess _ g' h = _
  unfold addProcess
  simp only [isTarget', update_self, if_true, putProcess, putGroup, update_idem]

end

/-- What the checks of `SetPGroupID` have established. -/
theorem pgroupNode_spec (isNode : s.pgroupNode self instigator pgroup = .ok (some node)) :
    ∃ process g group, s.processes self = some process ∧ process.group = some g ∧
      s.groups g = some group ∧ pgroup ≠ group.groupID ∧ s.nodes pgroup = some node ∧
      ∀ target, node.group = some target → (s.groups target).bind (·.session) = process.session := by
  unfold pgroupNode at isNode
  split at isNode
  · rename_i process caller found _
    split at isNode
    · cases isNode
    · rename_i group isGroup
      rcases bind_eq_some_iff.1 isGroup with ⟨g, inGroup, isGroup⟩
      split at isNode
      · cases isNode
      · rename_i differ
        split at isNode
        · cases isNode
        · split at isNode
          · cases isNode
          · split at isNode
            · cases isNode
            · split at isNode
              · cases isNode
              · rename_i node' isNode'
                split at isNode
                · rename_i noGroup
                  cases isNode
                  exact ⟨process, g, group, found, inGroup, isGroup, differ, isNode',
                    fun target isTarget => by rw [noGroup] at isTarget; cases isTarget⟩
                · rename_i target isTarget
                  split at isNode
                  · cases isNode
                  · rename_i sameSession
                    cases isNode
                    refine ⟨process, g, group, found, inGroup, isGroup, differ, isNode', ?_⟩
                    intro target' isTarget'
                    cases isTarget.symm.trans isTarget'
                    exact not_not.1 sameSession
  · cases isNode

theorem transfer_same (found : s.processes h = some process) :
    s.SameProcesses (s.transfer h process g group g' target) := by
  refine ⟨rfl, ?_, ?_⟩
  · intro h' p found'
    rcases update_cases found' with ⟨same, isNew⟩ | ⟨_, found'⟩
    · cases isNew
      rw [same]
      exact ⟨process, found, rfl, rfl⟩
    · exact ⟨p, found', rfl, rfl⟩
  · intro h'
    show (update s.processes h _ h').isSome = _
    by_cases same : h' = h
    · rw [same, update_self, found]
      rfl
    · rw [update_of_ne same]

theorem move_spec {vacant : Option Nat} (linked : Linked building vacant none s)
    (found : s.processes h = some process) (inGroup : process.group = some g)
    (isGroup : s.groups g = some group) (isTarget : s.groups g' = some target) (differ : g' ≠ g)
    (shared : ∃ h' ∈ group.processes, h' ≠ h) (filled : ∀ v, vacant = some v → v = g')
    (joins : target.session = process.session) :
    ∃ t, (do let t ← s.removeProcess g h
             t.addProcess g' h) = .ok t ∧ Linked building none none t ∧ s.SameProcesses t := by
  rcases linked.group_mem found inGroup with ⟨group', isGroup', member⟩
  cases isGroup.symm.trans isGroup'
  refine ⟨s.transfer h process g group g' target, ?_, ?_, transfer_same found⟩
  · rw [move_eq found inGroup isGroup isTarget differ member shared, transfer, joins]
  · exact transfer_linked linked found inGroup isGroup isTarget differ shared filled

section

variable (linked : Linked building none none s)
  (isNode : s.pgroupNode self instigator pgroup = .ok (some node)) (shares : s.SharesGroup self)

include linked isNode shares

/-- A group that a node has, or that is made for it, in the session of the process. -/
theorem moveToGroup_spec
    :
    ∃ g σ t, (∀ memory, s.setPGroupID self instigator pgroup memory =
        if node.group.isNone ∧ !memory.group then .error (.throws .nomem)
        else if memory.space then (s.moveToGroup self g node pgroup σ).map .returns
        else if node.group.isNone then .ok (.throws (s.newGroup pgroup σ).2)
        else .error (.throws .nomem)) ∧
      s.moveToGroup self g node pgroup σ = .ok t ∧ Linked building none none t ∧
      s.SameProcesses t := by
  rcases pgroupNode_spec isNode with
    ⟨process, g, group, found, inGroup, isGroup, differ, isNode', sameSession⟩
  rcases shares with ⟨process', g', group', found', inGroup', isGroup', shared⟩
  cases found.symm.trans found'
  cases inGroup.symm.trans inGroup'
  cases isGroup.symm.trans isGroup'
  rcases linked.session_isSome isGroup with ⟨σ, session, isHome, isSession, _⟩
  have inSession : process.session = some σ := (linked.session_of_group found inGroup isGroup).trans isHome
  refine ⟨g, σ, ?_⟩
  have applied : ∀ memory, s.setPGroupID self instigator pgroup memory =
      if node.group.isNone ∧ !memory.group then .error (.throws .nomem)
      else if memory.space then (s.moveToGroup self g node pgroup σ).map .returns
      else if node.group.isNone then .ok (.throws (s.newGroup pgroup σ).2)
      else .error (.throws .nomem) := by
    intro memory
    unfold setPGroupID
    rw [isNode, found]
    cases process
    cases inGroup
    cases inSession
    rfl
  have moves : s.moveToGroup self g node pgroup σ = (do
      let t ← (s.groupOfNode node pgroup σ).2.removeProcess g self
      t.addProcess (s.groupOfNode node pgroup σ).1 self) := rfl
  simp only [applied, implies_true, true_and]
  rw [moves]
  cases isTarget : node.group with
  | some g' =>
    have named : field s.nodes (·.group) pgroup = some g' := by simp [field, isNode', isTarget]
    rcases bind_eq_some_iff.1 ((linked.groups pgroup g').1 named) with ⟨target, found', isID⟩
    have other : g' ≠ g := by
      intro same
      rw [same, isGroup] at found'
      cases found'
      exact differ (some.inj isID).symm
    have joins : target.session = process.session := by
      have joins := sameSession g' isTarget
      rw [found'] at joins
      exact joins
    have isOld : s.groupOfNode node pgroup σ = (g', s) := by
      unfold groupOfNode
      rw [isTarget]
    rw [isOld]
    exact move_spec linked found inGroup isGroup found' other shared
      (fun _ impossible => by cases impossible) joins
  | none =>
    have unborn := (linked.fresh (Nat.le_refl s.nextRef)).2.2.1
    have other : s.nextRef ≠ g := by
      intro same
      rw [← same, unborn] at isGroup
      cases isGroup
    have isMade : s.groupOfNode node pgroup σ = (s.nextRef, s.withGroup pgroup node σ session) := by
      unfold groupOfNode newGroup
      rw [isTarget, isSession]
      rfl
    have made := withGroup_linked linked isNode' isTarget isSession fun _ impossible => by cases impossible
    have isOld : (s.withGroup pgroup node σ session).groups g = some group :=
      (update_of_ne other.symm ..).trans isGroup
    have isNew : (s.withGroup pgroup node σ session).groups s.nextRef =
        some { groupID := pgroup, session := some σ } := update_self ..
    rw [isMade]
    rcases move_spec made found inGroup isOld isNew other shared (fun _ same => (some.inj same).symm)
      inSession.symm with ⟨t, moved, linked', same⟩
    exact ⟨t, moved, linked', same.threads, same.process, same.isSome⟩

theorem setPGroupID_returns {memory : Memory}
   
    (object : node.group = none → memory.group) (space : memory.space) :
    ∃ t, s.setPGroupID self instigator pgroup memory = .ok (.returns t) ∧
      Linked building none none t ∧ s.SameProcesses t := by
  rcases moveToGroup_spec linked isNode shares with ⟨g, σ, t, applied, moves, linked', same⟩
  refine ⟨t, ?_, linked', same⟩
  have hasObject : ¬(node.group.isNone ∧ !memory.group) := by
    rintro ⟨isNew, noObject⟩
    rw [object (isNone_iff_eq_none.1 isNew)] at noObject
    cases noObject
  rw [applied, if_neg hasObject, if_pos space, moves]
  rfl

end

/-- What the checks of `CreateSession` have established. -/
theorem sessionNode_spec (isNode : s.sessionNode self = .ok node) :
    ∃ process g group, s.processes self = some process ∧ process.group = some g ∧
      s.groups g = some group ∧ group.groupID ≠ process.pid ∧ s.nodes process.pid = some node ∧
      node.session = none ∧ node.group = none := by
  unfold sessionNode at isNode
  split at isNode
  · cases isNode
  · rename_i process found
    split at isNode
    · cases isNode
    · rename_i group isGroup
      rcases bind_eq_some_iff.1 isGroup with ⟨g, inGroup, isGroup⟩
      split at isNode
      · cases isNode
      · rename_i notLeader
        split at isNode
        · cases isNode
        · rename_i node' isNode'
          split at isNode
          · cases isNode
          · rename_i unused
            cases isNode
            rw [not_or, not_isSome_iff_eq_none, not_isSome_iff_eq_none] at unused
            exact ⟨process, g, group, found, inGroup, isGroup, notLeader, isNode', unused⟩

/-- A session with one group, both made for the node of the process. -/
theorem moveToSession_spec (linked : Linked building none none s) (isNode : s.sessionNode self = .ok node)
    (shares : s.SharesGroup self) :
    ∃ g pid t, (∀ memory, s.createSession self memory =
        if memory.group then
          if memory.space then (s.moveToSession self g node pid).map .returns
          else .ok (.throws ((s.newSession pid).2.newGroup pid (s.newSession pid).1).2)
        else .error (.throws .nomem)) ∧
      s.moveToSession self g node pid = .ok t ∧ Linked building none none t ∧
      s.SameProcesses t := by
  rcases sessionNode_spec isNode with
    ⟨process, g, group, found, inGroup, isGroup, notLeader, isNode', noSession, noGroup⟩
  rcases shares with ⟨process', g', group', found', inGroup', isGroup', shared⟩
  cases found.symm.trans found'
  cases inGroup.symm.trans inGroup'
  cases isGroup.symm.trans isGroup'
  let made := s.withSession process.pid node
  let target := made.withGroup process.pid { node with session := some s.nextRef } s.nextRef
    { sessionID := process.pid }
  have madeLinked : Linked building none (some s.nextRef) made := withSession_linked linked isNode' noSession
  have isNew : made.nodes process.pid = some { node with session := some s.nextRef } := update_self ..
  have isSession : made.sessions s.nextRef = some { sessionID := process.pid } := update_self ..
  have targetLinked : Linked building (some (s.nextRef + 1)) none target :=
    withGroup_linked madeLinked isNew noGroup isSession fun _ same => (some.inj same).symm
  have unborn := (linked.fresh (Nat.le_succ s.nextRef)).2.2.1
  have other : s.nextRef + 1 ≠ g := by
    intro same
    rw [← same, unborn] at isGroup
    cases isGroup
  have isOld : target.groups g = some group := (update_of_ne other.symm ..).trans isGroup
  have isTarget : target.groups (s.nextRef + 1) =
      some { groupID := process.pid, session := some s.nextRef } := update_self ..
  rcases linked.group_mem found inGroup with ⟨group', isGroup', member⟩
  cases isGroup.symm.trans isGroup'
  refine ⟨g, process.pid, target.transfer self process g group (s.nextRef + 1)
    { groupID := process.pid, session := some s.nextRef }, ?_, ?_, ?_, ?_⟩
  · intro memory
    unfold createSession
    rw [isNode, found]
    cases process
    cases inGroup
    rfl
  · have isMade : (s.newSession process.pid).2.newGroup process.pid s.nextRef =
        (s.nextRef + 1, { target with nodes := s.nodes }) := by
      unfold newSession newGroup
      simp only [update_self]
      rfl
    have moved := move_eq (s := { target with nodes := s.nodes }) found inGroup isOld isTarget other member
      shared
    have applied : s.moveToSession self g node process.pid = (do
        let made := (s.newSession process.pid).2.newGroup process.pid s.nextRef
        let u ← (do let t ← made.2.removeProcess g self
                    t.addProcess made.1 self)
        (u.processes self).elim (.error .panics) fun process' =>
          .ok ((u.putProcess self (some { process' with session := some s.nextRef })).putNode process.pid
            (some { node with session := some s.nextRef, group := some made.1 }))) := by
      refine Eq.trans (bind_assoc (m := Except Stop) _ _ _).symm (bind_congr fun u => ?_)
      cases u.processes self <;> rfl
    rw [applied, isMade]
    show (_ : Except Stop ProcessTables) >>= _ = _
    rw [moved]
    have nodes : target.nodes = update s.nodes process.pid
        (some { node with session := some s.nextRef, group := some (s.nextRef + 1) }) := update_idem ..
    show (update target.processes self _ self).elim _ _ = _
    rw [update_self, elim_some]
    unfold transfer
    simp only [putProcess, putNode, update_idem, nodes]
  · exact transfer_linked targetLinked found inGroup isOld isTarget other shared
      fun _ same => (some.inj same).symm
  · have same : target.SameProcesses (target.transfer self process g group (s.nextRef + 1)
        { groupID := process.pid, session := some s.nextRef }) := transfer_same found
    exact ⟨same.threads, same.process, same.isSome⟩

/-! ## Creation -/

theorem allocateLoop_free {nodes : Int → Option KPIDNode} {startPID next nextPID : Int} {fuel : Nat}
    (allocated : allocateLoop nodes startPID fuel next = some (pid, nextPID)) : nodes pid = none := by
  induction fuel generalizing next with
  | zero => cases allocated
  | succ fuel ih =>
    unfold allocateLoop at allocated
    simp only at allocated
    by_cases free : (nodes next).isNone
    · rw [if_pos free] at allocated
      cases allocated
      exact isNone_iff_eq_none.1 free
    · rw [if_neg free] at allocated
      by_cases around : (if next = maxPID then firstDynamicID else next + 1) = startPID
      · rw [if_pos around] at allocated
        cases allocated
      · rw [if_neg around] at allocated
        exact ih allocated

theorem allocatePID_spec (allocated : s.allocatePID = .ok (pid, t)) :
    s.nodes pid = none ∧ ∃ nextPID, t = { s.putNode pid (some { pid := pid }) with nextPID := nextPID } := by
  unfold allocatePID at allocated
  split at allocated
  · cases allocated
  · rename_i found
    cases allocated
    exact ⟨allocateLoop_free found, _, rfl⟩

theorem no_process (linked : Linked none none none s) (free : s.nodes pid = none)
    (found : s.processes h = some process) : process.pid ≠ pid := by
  intro same
  have key : field s.processes (keyOf none) h = some pid := by simp [field, found, keyOf, same]
  have slot := (linked.processes pid h).2 key
  simp [field, free] at slot

theorem keys_of_absent (absent : ∀ h p, s.processes h = some p → p.pid ≠ pid) :
    field s.processes (keyOf (some pid)) = field s.processes (keyOf none) := by
  funext h
  cases found : s.processes h with
  | none => simp [field, found]
  | some p => simp [field, found, keyOf, (absent h p found).symm]

theorem allocated_linked (linked : Linked none none none s) (free : s.nodes pid = none) (nextPID : Int) :
    Linked (some pid) none none { s.putNode pid (some { pid := pid }) with nextPID := nextPID } := by
  exact { linked with
    nodeID := by
      intro pid' node' found
      refine update_all (P := fun k n => n.pid = k) linked.nodeID (fun _ isNew => ?_) found
      cases isNew
      rfl
    used := by
      intro pid' node' found empty
      rcases update_cases found with ⟨same, _⟩ | ⟨_, found⟩
      · rw [same]
      · exact absurd (linked.used found empty) (some_ne_none pid').symm
    processes := by
      show Named (field (update s.nodes pid _) _) (field s.processes _)
      rw [keys_of_absent fun h p found => no_process linked free found]
      exact linked.processes.left_same (by simp [field, free])
    threads := linked.threads.left_same (by simp [field, free])
    groups := linked.groups.left_same (by simp [field, free])
    sessions := linked.sessions.left_same (by simp [field, free])
    settled := fun found => (linked.settled found).congr fun _ _ => rfl }

theorem newThread_spec (linked : Linked building none none s) (spare : ∀ id, building = some id → id = pid)
    (keys : field s.processes (keyOf building) = field s.processes (keyOf none))
    (found : s.processes h = some process) (isLive : process.isLive)
    (noThread : field s.nodes (·.thread) pid = none) (made : s.newThread pid h = .ok t) :
    Linked none none none t := by
  unfold newThread at made
  rw [found] at made
  cases isNode : s.nodes pid with
  | none =>
    rw [isNode] at made
    cases made
  | some node =>
    rw [isNode] at made
    cases made
    have without : node.thread = none := by simpa [field, isNode] using noThread
    exact withThread_linked linked isNode without found isLive spare keys

/-- What is asked of the group that a new process is to have, and of the memory for it. -/
def Admits (s : ProcessTables) (pid : Int) (parent : KProcess) (memory : Memory) :
    SpawnGroup → Prop
  | .inherit => True
  | .setSID => memory.group ∧ memory.space
  | .setPGroup pgroup =>
    let id := if pgroup ≠ 0 then pgroup else pid
    (parent.group.bind s.groups).map (·.groupID) = some id ∨
      ∃ node, s.nodes id = some node ∧
        (∀ g, node.group = some g → (s.groups g).bind (·.session) = parent.session) ∧
        (node.group = none → memory.group) ∧ memory.space

section

variable (linked : Linked building none none s) (found : s.processes parent = some process)
  (inGroup : process.group = some g) (isGroup : s.groups g = some group)

include linked found inGroup isGroup

theorem enterGroup_eq
    :
    s.enterGroup pid parent g process.session = .ok (s.nextRef, s.entered pid parent g group) := by
  have sameSession := linked.session_of_group found inGroup isGroup
  unfold enterGroup addProcess entered
  simp only [putProcess, putGroup, isGroup, update_self, if_true, update_idem, sameSession]
  rfl

theorem entered_shares
    :
    (s.entered pid parent g group).SharesGroup s.nextRef := by
  rcases linked.group_mem found inGroup with ⟨group', isGroup', member⟩
  cases isGroup.symm.trans isGroup'
  refine ⟨_, g, _, update_self .., rfl, update_self .., parent, List.mem_append_left _ member, ?_⟩
  intro same
  rw [same, (linked.fresh (Nat.le_refl s.nextRef)).1] at found
  cases found

end

/-- A process that has entered its parent's group gets the group or the session asked for. -/
theorem applySpawnGroup_spec (linked : Linked (some pid) none none s) (isNode : s.nodes pid = some { pid := pid })
    (found : s.processes parent = some process) (inGroup : process.group = some g)
    (isGroup : s.groups g = some group) {flags : SpawnGroup} {memory : Memory}
    (admits : s.Admits pid process memory flags) :
    ∃ t, (s.entered pid parent g group).applySpawnGroup s.nextRef pid memory flags =
        .ok (.returns t) ∧
      Linked (some pid) none none t ∧ (s.entered pid parent g group).SameProcesses t := by
  have entered := entered_linked linked isGroup parent
  have shares : (s.entered pid parent g group).SharesGroup s.nextRef := entered_shares linked found inGroup isGroup
  have isSelf : (s.entered pid parent g group).processes s.nextRef =
      some { pid := pid, parent := some parent, session := group.session, group := some g } := update_self ..
  have isGroup' : (s.entered pid parent g group).groups g =
      some { group with processes := group.processes ++ [s.nextRef] } := update_self ..
  have sameSession := linked.session_of_group found inGroup isGroup
  cases flags with
  | inherit => exact ⟨_, rfl, entered, .refl _⟩
  | setSID =>
    have notLeader : group.groupID ≠ pid := by
      intro same
      have key : field s.groups (fun group => some group.groupID) g = some pid := by
        simp [field, isGroup, same]
      have slot := (linked.groups pid g).2 key
      simp [field, isNode] at slot
    have checked : (s.entered pid parent g group).sessionNode s.nextRef = .ok { pid := pid } := by
      unfold sessionNode
      have isNode' : (s.entered pid parent g group).nodes pid = some { pid := pid } := isNode
      simp only [isSelf, bind_some, isGroup', if_neg notLeader, isNode']
      rfl
    rcases moveToSession_spec entered checked shares with
      ⟨_, _, t, applied, moves, linked', same⟩
    refine ⟨t, ?_, linked', same⟩
    show (s.entered pid parent g group).createSession s.nextRef memory = _
    rw [applied, if_pos admits.1, if_pos admits.2, moves]
    rfl
  | setPGroup pgroup =>
    let id := if pgroup ≠ 0 then pgroup else pid
    show ∃ t, (s.entered pid parent g group).setPGroupID s.nextRef s.nextRef id memory =
      .ok (.returns t) ∧ _
    have notParent : some parent ≠ some s.nextRef := by
      intro same
      rw [some.inj same, (linked.fresh (Nat.le_refl s.nextRef)).1] at found
      cases found
    by_cases already : id = group.groupID
    · have checked : (s.entered pid parent g group).pgroupNode s.nextRef s.nextRef id = .ok none := by
        unfold pgroupNode
        simp only [isSelf, bind_some, isGroup', if_pos already]
      refine ⟨s.entered pid parent g group, ?_, entered, .refl _⟩
      unfold setPGroupID
      rw [checked]
    · have asked : ∃ node, s.nodes id = some node ∧
          (∀ g, node.group = some g → (s.groups g).bind (·.session) = process.session) ∧
          (node.group = none → memory.group) ∧ memory.space := by
        rcases admits with isOwn | asked
        · rw [inGroup, bind_some, isGroup] at isOwn
          exact absurd (some.inj isOwn).symm already
        · exact asked
      rcases asked with ⟨node, isNode', joins, object, space⟩
      have sessions : field (s.entered pid parent g group).groups (·.session) = field s.groups (·.session) :=
        field_update_same (by simp [field, isGroup])
      have checked : (s.entered pid parent g group).pgroupNode s.nextRef s.nextRef id = .ok (some node) := by
        unfold pgroupNode
        simp only [isSelf, bind_some, isGroup', if_neg already]
        rw [if_neg fun both => notParent both.1, if_neg fun both => notParent both.1,
          if_neg fun both => both.2 rfl]
        have isAsked : (s.entered pid parent g group).nodes id = some node := isNode'
        rw [isAsked]
        cases isTarget : node.group with
        | none => simp only [isTarget]
        | some target =>
          simp only [isTarget]
          have same : ((s.entered pid parent g group).groups target).bind (·.session) = group.session := by
            show field (s.entered pid parent g group).groups (·.session) target = _
            rw [sessions, ← sameSession]
            exact joins target isTarget
          rw [same, if_neg (not_not.2 rfl)]
      exact setPGroupID_returns entered checked shares object space

/-- Without memory for the process nothing is changed. -/
theorem newProcess_noObject {flags : SpawnGroup} {memory : Memory}
    (linked : Linked building none none s) (found : s.processes parent = some process)
    (isLive : process.isLive) (object : memory.process = false) :
    s.newProcess pid parent flags memory = .ok (s, none) := by
  rcases isSome_iff_exists.1 ((linked.settled found).live_iff.1 isLive) with ⟨g, inGroup⟩
  unfold newProcess
  rw [found]
  cases process
  cases inGroup
  show (if memory.process = true then _ else _) = _
  rw [object, if_neg (by simp)]

theorem newProcess_spec {made : Option Nat} (linked : Linked (some pid) none none s)
    (isNode : s.nodes pid = some { pid := pid })
    (absent : ∀ h p, s.processes h = some p → p.pid ≠ pid) (found : s.processes parent = some process)
    (isLive : process.isLive) {flags : SpawnGroup} {memory : Memory}
    (object : memory.process) (child : memory.child) (admits : s.Admits pid process memory flags)
    (result : s.newProcess pid parent flags memory = .ok (t, made)) :
    ∃ h p, made = some h ∧ Linked none none none t ∧ t.processes h = some p ∧ p.isLive ∧
      field t.nodes (·.thread) pid = none := by
  rcases isSome_iff_exists.1 ((linked.settled found).live_iff.1 isLive) with ⟨g, inGroup⟩
  rcases linked.group_mem found inGroup with ⟨group, isGroup, _⟩
  rcases applySpawnGroup_spec linked isNode found inGroup isGroup admits with ⟨u, applied, linked', same⟩
  have applied' : s.newProcess pid parent flags memory =
      (s.entered pid parent g group).finishProcess s.nextRef parent pid memory
        (.ok (.returns u)) := by
    have isEntered : s.enterGroup pid parent g process.session =
        .ok (s.nextRef, s.entered pid parent g group) := enterGroup_eq linked found inGroup isGroup
    unfold newProcess
    rw [found]
    cases process
    cases inGroup
    show (if memory.process = true then (do
      let entered ← s.enterGroup pid parent g _
      _) else _) = _
    rw [if_pos object, isEntered]
    show (s.entered pid parent g group).finishProcess s.nextRef parent pid memory
      ((s.entered pid parent g group).applySpawnGroup s.nextRef pid memory flags) = _
    rw [applied]
  rw [applied'] at result
  simp only [finishProcess, child, if_true] at result
  cases isOwner : u.processes parent with
  | none =>
    rw [isOwner] at result
    cases result
  | some owner =>
    cases isNode' : u.nodes pid with
    | none =>
      rw [isOwner, isNode'] at result
      cases result
    | some node =>
      rw [isOwner, isNode'] at result
      cases result
      have isSelf : (s.entered pid parent g group).processes s.nextRef = some
          { pid := pid, parent := some parent, session := group.session, group := some g } := update_self ..
      have onlySelf (h : Nat) (p : KProcess) (found : u.processes h = some p) (samePID : p.pid = pid) :
          h = s.nextRef := by
        rcases same.process found with ⟨p', found', samePID', _⟩
        rcases update_cases found' with ⟨isSelf, _⟩ | ⟨_, found'⟩
        · exact isSelf
        · exact absurd (samePID'.symm.trans samePID) (absent h p' found')
      have isSome := same.isSome s.nextRef
      rw [isSelf] at isSome
      rcases isSome_iff_exists.1 isSome with ⟨p, found'⟩
      rcases same.process found' with ⟨p', isOld, samePID, sameState⟩
      cases isSelf.symm.trans isOld
      have notParent : s.nextRef ≠ parent := by
        intro isParent
        rw [← isParent, (linked.fresh (Nat.le_refl s.nextRef)).1] at found
        cases found
      have relabeled := relabel_linked linked'
        (update u.processes parent (some { owner with children := owner.children ++ [s.nextRef] }))
        (by
          intro h
          by_cases isParent : h = parent
          · rw [isParent, update_self, isOwner]
            rfl
          · rw [update_of_ne isParent])
      have unnamed : node.process = none := by
        cases isProcess : node.process with
        | none => rfl
        | some h =>
          have slot : field u.nodes (·.process) pid = some h := by simp [field, isNode', isProcess]
          rcases bind_eq_some_iff.1 ((linked'.processes pid h).1 slot) with ⟨p, _, key⟩
          unfold keyOf at key
          split at key
          · cases key
          · rename_i other
            rw [some.inj key] at other
            exact absurd rfl other
      have found'' : update u.processes parent (some { owner with children := owner.children ++ [s.nextRef] })
          s.nextRef = some p := (update_of_ne notParent ..).trans found'
      have finished := named_linked relabeled isNode' unnamed found'' samePID (by
        intro h' p' found' samePID'
        rcases update_cases found' with ⟨isParent, isNew⟩ | ⟨_, found'⟩
        · cases isNew
          exact onlySelf h' owner (isParent ▸ isOwner) samePID'
        · exact onlySelf h' p' found' samePID')
      refine ⟨s.nextRef, p, rfl, finished, found'', ?_, ?_⟩
      · show p.state ≠ .zombie
        rw [sameState]
        exact KProcessState.noConfusion
      · have noThread : field s.nodes (·.thread) pid = none := by simp [field, isNode]
        have noThread' : field u.nodes (·.thread) pid = none := by
          cases isThread : field u.nodes (·.thread) pid with
          | none => rfl
          | some t =>
            have key := (linked'.threads pid t).1 isThread
            rw [same.threads] at key
            have slot := (linked.threads pid t).2 key
            rw [noThread] at slot
            cases slot
        show field (update u.nodes pid _) _ pid = none
        rw [field_update, update_self]
        simpa [field, isNode'] using noThread'

end PadOS.Kernel.ProcessTables
