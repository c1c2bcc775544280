import PadOS.Core.Registry
import PadOS.Core.Transition
import PadOS.Core.ErrorCode
import Mathlib.Algebra.Group.Int.Defs
import Mathlib.Algebra.Group.Nat.Defs

/-! # Process IDs, groups and sessions

`g_PIDMap` maps an ID to a node that points to the thread, the process, the group and the
session with that ID. A process points to its group and its session, a group lists its
processes and points to its session, and a session lists its groups. Objects are found by
reference; a reference is not used again.

Each call that holds `g_PIDMapMutex` is one step, and each of its allocations may fail.
-/

namespace PadOS.Kernel

open Function Transition

inductive KProcessState
  | running
  | stopping
  | stopped
  | continuing
  | continued
  | zombie
  deriving DecidableEq, Repr

structure KThreadCB where
  handle : Int
  process : Option Nat

structure KProcess where
  pid : Int
  state : KProcessState := .running
  parent : Option Nat := none
  session : Option Nat := none
  group : Option Nat := none
  children : List Nat := []
  threads : List Nat := []

/-- `HasExeced` always says no. -/
def KProcess.hasExeced (_ : KProcess) : Bool := false

structure KProcessGroup where
  groupID : Int
  session : Option Nat
  processes : List Nat := []

structure KProcessSession where
  sessionID : Int
  controllingTTY : Option Nat := none
  foregroundGroup : Option Nat := none
  groups : List Nat := []

structure KPIDNode where
  pid : Int
  thread : Option Nat := none
  process : Option Nat := none
  group : Option Nat := none
  session : Option Nat := none

def KPIDNode.isEmpty (node : KPIDNode) : Bool :=
  node.thread.isNone && node.process.isNone && node.group.isNone && node.session.isNone

/-- `KTHREAD_ID_FIRST_DYNAMIC`. -/
def firstDynamicID : Int := 2

def maxPID : Int := 2 ^ 31 - 1

/-- `gk_KernelProcess`. -/
def kernelProcess : Nat := 0

structure ProcessTables where
  nodes : Int → Option KPIDNode
  processes : Nat → Option KProcess
  threads : Nat → Option KThreadCB
  groups : Nat → Option KProcessGroup
  sessions : Nat → Option KProcessSession
  nextPID : Int
  nextRef : Nat

namespace ProcessTables

section

variable (s : ProcessTables)

def putNode (pid : Int) (node : Option KPIDNode) : ProcessTables :=
  { s with nodes := update s.nodes pid node }

def putProcess (ref : Nat) (process : Option KProcess) : ProcessTables :=
  { s with processes := update s.processes ref process }

def putThread (ref : Nat) (thread : Option KThreadCB) : ProcessTables :=
  { s with threads := update s.threads ref thread }

def putGroup (ref : Nat) (group : KProcessGroup) : ProcessTables :=
  { s with groups := update s.groups ref (some group) }

def putSession (ref : Nat) (session : KProcessSession) : ProcessTables :=
  { s with sessions := update s.sessions ref (some session) }

end

/-! ## Nodes -/

/-- The loop of `kallocate_pid_trw_pl`: the ID it finds and the ID it looks at next. -/
def allocateLoop (nodes : Int → Option KPIDNode) (startPID : Int) : Nat → Int → Option (Int × Int)
  | 0, _ => none
  | fuel + 1, pid =>
    let nextPID := if pid = maxPID then firstDynamicID else pid + 1
    if (nodes pid).isNone then some (pid, nextPID)
    else if nextPID = startPID then none
    else allocateLoop nodes startPID fuel nextPID

section

variable (s : ProcessTables)

/-- `kallocate_pid_trw_pl`. There are less than `2 ^ 31` dynamic IDs. -/
def allocatePID : Except Stop (Int × ProcessTables) :=
  match allocateLoop s.nodes s.nextPID (2 ^ 31) s.nextPID with
  | none => .error (.throws .again)
  | some (pid, nextPID) => .ok (pid, { s.putNode pid (some { pid := pid }) with nextPID := nextPID })

/-- `kerase_pid_node_if_empty_pl`. -/
def erasePIDNodeIfEmpty (pid : Int) : ProcessTables :=
  match s.nodes pid with
  | none => s
  | some node => if node.isEmpty then s.putNode pid none else s

/-! ## Sessions and groups -/

/-- `KProcessSession::RemoveGroup`. -/
def removeGroup (self group : Nat) : Except Stop ProcessTables :=
  match s.sessions self with
  | none => .error .panics
  | some session =>
    if (s.groups group).bind (·.session) ≠ some self then .error .panics
    else
      let foregroundGroup := if session.foregroundGroup = some group then none else session.foregroundGroup
      if group ∈ session.groups then
        let groups := session.groups.erase group
        let t := s.putSession self
          { session with foregroundGroup := foregroundGroup, groups := groups }
        .ok (if groups = [] then t.erasePIDNodeIfEmpty session.sessionID else t)
      else .ok (s.putSession self { session with foregroundGroup := foregroundGroup })

/-- The constructor of `KProcessGroup`, with the `AddGroup` of its session. -/
def newGroup (id : Int) (session : Nat) : Nat × ProcessTables :=
  let t := { s with
    groups := update s.groups s.nextRef (some { groupID := id, session := some session })
    nextRef := s.nextRef + 1 }
  match s.sessions session with
  | none => (s.nextRef, t)
  | some owner => (s.nextRef, t.putSession session { owner with groups := owner.groups ++ [s.nextRef] })

def newSession (id : Int) : Nat × ProcessTables :=
  (s.nextRef, { s with
    sessions := update s.sessions s.nextRef (some { sessionID := id })
    nextRef := s.nextRef + 1 })

/-- `KProcessGroup::AddProcess`. -/
def addProcess (self process : Nat) : Except Stop ProcessTables :=
  match s.groups self, s.processes process with
  | some group, some member =>
    if member.group = none then
      .ok ((s.putProcess process (some { member with group := some self })).putGroup self
        { group with processes := group.processes ++ [process] })
    else .error .panics
  | _, _ => .error .panics

/-- `KProcessGroup::RemoveProcess`. -/
def removeProcess (self process : Nat) : Except Stop ProcessTables :=
  match s.groups self, s.processes process with
  | some group, some member =>
    if member.group ≠ some self then .error .panics
    else if process ∈ group.processes then
      let processes := group.processes.erase process
      let t := (s.putProcess process (some { member with group := none })).putGroup self
        { group with processes := processes }
      match group.session with
      | some session => if processes = [] then t.removeGroup session self else .ok t
      | none => .ok t
    else .ok s
  | _, _ => .error .panics

end

/-! ## Moving a process -/

/-- Which allocations of a call succeed. -/
structure Memory where
  /-- The node, the process and its place in the list of its parent's group. -/
  process : Bool
  /-- A group, its session when that is new too, and the group's place in the session's list. -/
  group : Bool
  /-- `ReserveSpace` -/
  space : Bool
  /-- The place in the list of the parent's children. -/
  child : Bool
  thread : Bool
  deriving DecidableEq, Repr

/-- How a call ends that changes the tables before it can fail. -/
inductive Ended
  | returns (tables : ProcessTables)
  | throws (tables : ProcessTables)

def Ended.tables : Ended → ProcessTables
  | returns tables => tables
  | throws tables => tables

section

variable (s : ProcessTables)

/-- The checks of `SetPGroupID`; no node if the process is in the group already. -/
def pgroupNode (self instigator : Nat) (pgroup : Int) :
    Except Stop (Option KPIDNode) :=
  match s.processes self, s.processes instigator with
  | some process, some caller =>
    match process.group.bind s.groups with
    | none => .error .panics
    | some group =>
      if pgroup = group.groupID then .ok none
      else if process.parent = some instigator ∧ process.session ≠ caller.session then
        .error (.throws .perm)
      else if process.parent = some instigator ∧ process.hasExeced then .error (.throws .acces)
      else if process.parent ≠ some instigator ∧ instigator ≠ self then .error (.throws .srch)
      else
        match s.nodes pgroup with
        | none => .error (.throws .inval)
        | some node =>
          match node.group with
          | none => .ok (some node)
          | some target =>
            if (s.groups target).bind (·.session) ≠ process.session then .error (.throws .perm)
            else .ok (some node)
  | _, _ => .error .panics

/-- The group of a node, made for the session if there is none. -/
def groupOfNode (node : KPIDNode) (pgroup : Int) (session : Nat) :
    Nat × ProcessTables :=
  match node.group with
  | some group => (group, s)
  | none =>
    let made := s.newGroup pgroup session
    (made.1, made.2.putNode pgroup (some { node with group := some made.1 }))

/-- The end of `SetPGroupID`, behind `ReserveSpace`. -/
def moveToGroup (self group : Nat) (node : KPIDNode) (pgroup : Int)
    (session : Nat) : Except Stop ProcessTables := do
  let target := s.groupOfNode node pgroup session
  let t ← target.2.removeProcess group self
  t.addProcess target.1 self

/-- `SetPGroupID`. A new group is in the list of its session before `ReserveSpace` is called, and
stays there when that throws. -/
def setPGroupID (self instigator : Nat) (pgroup : Int) (memory : Memory) :
    Except Stop Ended :=
  match s.pgroupNode self instigator pgroup, s.processes self with
  | .ok (some node), some { group := some group, session := some session, .. } =>
    if node.group.isNone ∧ !memory.group then .error (.throws .nomem)
    else if memory.space then (s.moveToGroup self group node pgroup session).map .returns
    else if node.group.isNone then .ok (.throws (s.newGroup pgroup session).2)
    else .error (.throws .nomem)
  | .ok (some _), _ => .error .panics
  | .ok none, _ => .ok (.returns s)
  | .error stop, _ => .error stop

/-- The checks of `CreateSession`. -/
def sessionNode (self : Nat) : Except Stop KPIDNode :=
  match s.processes self with
  | none => .error .panics
  | some process =>
    match process.group.bind s.groups with
    | none => .error .panics
    | some group =>
      if group.groupID = process.pid then .error (.throws .perm)
      else
        match s.nodes process.pid with
        | none => .error (.throws .inval)
        | some node =>
          if node.session.isSome ∨ node.group.isSome then .error (.throws .perm)
          else .ok node

/-- The end of `CreateSession`, behind `ReserveSpace`. -/
def moveToSession (self group : Nat) (node : KPIDNode) (pid : Int) :
    Except Stop ProcessTables := do
  let session := s.newSession pid
  let made := session.2.newGroup pid session.1
  let t ← made.2.removeProcess group self
  let u ← t.addProcess made.1 self
  match u.processes self with
  | none => .error .panics
  | some process =>
    .ok ((u.putProcess self (some { process with session := some session.1 })).putNode pid
      (some { node with session := some session.1, group := some made.1 }))

/-- `CreateSession`. When `ReserveSpace` throws, the new session and its group keep each other. -/
def createSession (self : Nat) (memory : Memory) : Except Stop Ended :=
  match s.sessionNode self, s.processes self with
  | .ok node, some { pid := pid, group := some group, .. } =>
    if memory.group then
      if memory.space then (s.moveToSession self group node pid).map .returns
      else
        let session := s.newSession pid
        .ok (.throws (session.2.newGroup pid session.1).2)
    else .error (.throws .nomem)
  | .ok _, _ => .error .panics
  | .error stop, _ => .error stop

end

/-! ## Creation -/

/-- The flags of `PPosixSpawnAttribs` that are about sessions and groups. -/
inductive SpawnGroup
  | inherit
  | setSID
  | setPGroup (pgroup : Int)

section

variable (s : ProcessTables)

/-- What the constructor of `KProcess` does with the flags. -/
def applySpawnGroup (self : Nat) (pid : Int) (memory : Memory) :
    SpawnGroup → Except Stop Ended
  | .inherit => .ok (.returns s)
  | .setSID => s.createSession self memory
  | .setPGroup pgroup => s.setPGroupID self self (if pgroup ≠ 0 then pgroup else pid) memory

/-- The start of the constructor of `KProcess`: the process is in its parent's group. -/
def enterGroup (pid : Int) (parent group : Nat) (session : Option Nat) :
    Except Stop (Nat × ProcessTables) := do
  let made := { s.putProcess s.nextRef (some { pid := pid, parent := some parent, session := session })
    with nextRef := s.nextRef + 1 }
  let t ← made.addProcess group s.nextRef
  .ok (s.nextRef, t)

/-- The end of the constructor of `KProcess`. What has been thrown before it leaves the process
in the list of its group: the destructor does not run. -/
def finishProcess (self parent : Nat) (pid : Int) (memory : Memory) :
    Except Stop Ended → Except Stop (ProcessTables × Option Nat)
  | .error .panics => .error .panics
  | .error (.throws _) => .ok (s.putProcess self none, none)
  | .ok (.throws t) => .ok (t.putProcess self none, none)
  | .ok (.returns t) =>
    if memory.child then
      match t.processes parent, t.nodes pid with
      | some owner, some node =>
        .ok ((t.putProcess parent
          (some { owner with children := owner.children ++ [self] })).putNode pid
            (some { node with process := some self }), some self)
      | _, _ => .error .panics
    else .ok (t.putProcess self none, none)

/-- The constructor of `KProcess`. -/
def newProcess (pid : Int) (parent : Nat) (flags : SpawnGroup)
    (memory : Memory) : Except Stop (ProcessTables × Option Nat) :=
  match s.processes parent with
  | some { group := some group, session := session, .. } =>
    if memory.process then do
      let entered ← s.enterGroup pid parent group session
      entered.2.finishProcess entered.1 parent pid memory
        (entered.2.applySpawnGroup entered.1 pid memory flags)
    else .ok (s, none)
  | _ => .error .panics

/-- The constructor of `KThreadCB`, with the `AddThread` of its process, and the end of
`kthread_spawn_trw`. -/
def newThread (pid : Int) (process : Nat) : Except Stop ProcessTables :=
  match s.processes process, s.nodes pid with
  | some owner, some node =>
    let thread := s.nextRef
    let t := { s.putProcess process (some { owner with threads := owner.threads ++ [thread] })
      with nextRef := s.nextRef + 1 }
    .ok ((t.putThread thread (some { handle := pid, process := some process })).putNode pid
      (some { node with thread := some thread }))
  | _, _ => .error .panics

/-- The process that a thread runs in. -/
def currentProcess (thread : Nat) : Option Nat :=
  (s.threads thread).bind (·.process)

/-- `kthread_spawn_trw` in the calling thread's process. -/
def spawnThread (current : Nat) (memory : Memory) :
    Except Stop ProcessTables :=
  match s.allocatePID, s.currentProcess current with
  | .error stop, _ => .error stop
  | .ok (pid, t), some process =>
    if memory.thread then t.newThread pid process else .ok (t.putNode pid none)
  | .ok _, none => .error .panics

/-- `kthread_spawn_trw` with `SpawnProcess`. A failure erases the node. A process whose thread
cannot be made is destroyed, which its destructor asserts not to happen while it is in a group. -/
def spawnProcess (current : Nat) (flags : SpawnGroup) (memory : Memory) :
    Except Stop ProcessTables :=
  match s.allocatePID, s.currentProcess current with
  | .error stop, _ => .error stop
  | .ok (pid, t), some parent =>
    match t.newProcess pid parent flags memory with
    | .error stop => .error stop
    | .ok (u, none) => .ok (u.putNode pid none)
    | .ok (u, some process) => if memory.thread then u.newThread pid process else .error .panics
  | .ok _, none => .error .panics

/-! ## System calls -/

/-- The destination of `ksetpgid_trw`, and the group it is to have. -/
def pgroupTarget (self : Nat) (inDest inGroup : Int) : Except Stop (Nat × Int) :=
  match s.processes self with
  | none => .error .panics
  | some caller =>
    let dstPID := if 0 = inDest then caller.pid else inDest
    let pgroup := if 0 = inGroup then dstPID else inGroup
    if pgroup ≤ 0 then .error (.throws .inval)
    else
      match (s.nodes dstPID).bind (·.process) with
      | none => .error (.throws .srch)
      | some dst =>
        match s.processes dst with
        | none => .error .panics
        | some process =>
          if process.parent = some self ∧ process.hasExeced then .error (.throws .acces)
          else if process.parent = some self ∧ process.session ≠ caller.session then
            .error (.throws .perm)
          else if process.parent ≠ some self ∧ dst ≠ self then .error (.throws .srch)
          else
            match process.group.bind s.groups with
            | none => .error .panics
            | some group =>
              if group.groupID = process.pid then .error (.throws .perm) else .ok (dst, pgroup)

/-- `ksetpgid_trw`. -/
def setpgid (current : Nat) (inDest inGroup : Int) (memory : Memory) :
    Except Stop Ended :=
  match s.currentProcess current with
  | none => .error .panics
  | some self => do
      let target ← s.pgroupTarget self inDest inGroup
      s.setPGroupID target.1 self target.2 memory

/-- `ksetsid_trw`. -/
def setsid (current : Nat) (memory : Memory) : Except Stop Ended :=
  match s.currentProcess current with
  | none => .error .panics
  | some self => s.createSession self memory

/-! ## Exit -/

/-- `kdisassociate_controlling_tty_trw`, as far as it is about the session. -/
def disassociateControllingTTY (ref : Nat) : ProcessTables :=
  match s.sessions ref with
  | none => s
  | some session =>
    if session.controllingTTY = none then s
    else s.putSession ref { session with controllingTTY := none, foregroundGroup := none }

end

/-- A process after the children of `self`, which exits, have become children of the kernel
process. -/
def reparented (self : Nat) (children : List Nat) (ref : Nat) (process : KProcess) : KProcess :=
  { process with
    parent := if ref ∈ children then some kernelProcess else process.parent
    children := if ref = self then []
      else if ref = kernelProcess then process.children ++ children else process.children }

section

variable (s : ProcessTables)

def reparentChildren (self : Nat) (children : List Nat) : ProcessTables :=
  { s with processes := fun ref => (s.processes ref).map (reparented self children ref) }

/-- `IsSessionLeader`. -/
def isSessionLeader (process : KProcess) : Bool :=
  ((process.session.bind s.sessions).map (·.sessionID)) == some process.pid

/-- `HandleExit`. A process without parent is not waited for. -/
def handleExit (self : Nat) : Except Stop ProcessTables :=
  match s.processes self with
  | some process =>
    match process.group, process.session with
    | some group, some session => do
        let t := if s.isSessionLeader process then s.disassociateControllingTTY session else s
        let left ← t.removeProcess group self
        let u := left.reparentChildren self process.children
        match u.processes self with
        | none => .error .panics
        | some process =>
          if process.parent.isSome then
            .ok (u.putProcess self (some { process with session := none, state := .zombie }))
          else
            match u.nodes process.pid with
            | none => .error .panics
            | some node =>
              .ok (((u.putProcess self none).putNode process.pid
                (some { node with process := none })).erasePIDNodeIfEmpty process.pid)
    | _, _ => .error .panics
  | none => .error .panics

/-- `RemoveThread`, called by the thread as it exits. -/
def exitThread (current : Nat) : Except Stop ProcessTables :=
  match s.threads current with
  | some { handle := handle, process := some self } =>
    match s.processes self with
    | none => .error .panics
    | some process => do
        let threads := process.threads.erase current
        let t := s.putProcess self (some { process with threads := threads })
        let u ← if threads = [] then t.handleExit self else .ok t
        .ok (u.putThread current (some { handle := handle, process := none }))
  | _ => .error .panics

/-- The part of the init thread's loop that frees a thread which has exited. -/
def reapThread (thread : Nat) : Except Stop ProcessTables :=
  match s.threads thread with
  | some { handle := pid, process := none } =>
    match s.nodes pid with
    | none => .error .panics
    | some node =>
      .ok (((s.putThread thread none).putNode pid (some { node with thread := none })).erasePIDNodeIfEmpty
        pid)
  | _ => .error .panics

/-- `GetChildInfo` of a zombie, without `WNOWAIT`. -/
def reapChild (self : Nat) (node : KPIDNode) (child : Nat) : ProcessTables :=
  let t := match s.processes self with
    | none => s
    | some parent => s.putProcess self (some { parent with children := parent.children.erase child })
  ((t.putProcess child none).putNode node.pid (some { node with process := none })).erasePIDNodeIfEmpty
    node.pid

/-- `WaitPID` with `WEXITED`, up to where it waits. -/
def waitPID (current : Nat) (pid : Int) : Except Stop ProcessTables :=
  match s.currentProcess current, s.nodes pid with
  | none, _ => .error .panics
  | _, none => .error (.throws .srch)
  | some self, some node =>
    match node.process with
    | none => .error (.throws .srch)
    | some child =>
      match s.processes child with
      | none => .error .panics
      | some process =>
        if process.parent ≠ some self then .error (.throws .child)
        else if process.state = .zombie then .ok (s.reapChild self node child)
        else .ok s

end

end ProcessTables

/-! ## The system -/

inductive PIDOp
  | spawnThread (current : Nat) (memory : ProcessTables.Memory)
  | spawnProcess (current : Nat) (flags : ProcessTables.SpawnGroup)
      (memory : ProcessTables.Memory)
  | setpgid (current : Nat) (inDest inGroup : Int) (memory : ProcessTables.Memory)
  | setsid (current : Nat) (memory : ProcessTables.Memory)
  | exitThread (current : Nat)
  | reapThread (thread : Nat)
  | waitPID (current : Nat) (pid : Int)
  | erasePIDNodeIfEmpty (pid : Int)
  | setForegroundGroup (session : Nat) (group : Option Nat)
  | setControllingTTY (session : Nat) (inode : Option Nat)

namespace ProcessTables

/-- A session is changed where it is. -/
def modifySession (s : ProcessTables) (ref : Nat) (change : KProcessSession → KProcessSession) :
    ProcessTables :=
  match s.sessions ref with
  | none => s
  | some session => s.putSession ref (change session)

/-- The tables that a call leaves behind. -/
def call (s : ProcessTables) : PIDOp → Except Stop ProcessTables
  | .spawnThread current memory => s.spawnThread current memory
  | .spawnProcess current flags memory => s.spawnProcess current flags memory
  | .setpgid current inDest inGroup memory => (s.setpgid current inDest inGroup memory).map Ended.tables
  | .setsid current memory => (s.setsid current memory).map Ended.tables
  | .exitThread current => s.exitThread current
  | .reapThread thread => s.reapThread thread
  | .waitPID current pid => s.waitPID current pid
  | .erasePIDNodeIfEmpty pid => .ok (s.erasePIDNodeIfEmpty pid)
  | .setForegroundGroup session group =>
    .ok (s.modifySession session fun owner => { owner with foregroundGroup := group })
  | .setControllingTTY session inode =>
    .ok (s.modifySession session fun owner => { owner with controllingTTY := inode })

/-- What is thrown before anything is changed leaves the tables as they are; after a panic there is
no state. -/
def step (s : ProcessTables) (op : PIDOp) : Option ProcessTables :=
  match s.call op with
  | .ok t => some t
  | .error (.throws _) => some s
  | .error .panics => none

def pidSystem : System ProcessTables PIDOp where
  step := step

/-- The state in which the scheduler starts: the kernel process with the threads `idle` and
`init`. -/
def initial : ProcessTables where
  nodes pid :=
    if pid = 0 then some { pid := 0, thread := some 0 }
    else if pid = 1 then
      some { pid := 1, thread := some 1, process := some 0, group := some 0, session := some 0 }
    else none
  processes ref :=
    if ref = 0 then some { pid := 1, session := some 0, group := some 0, threads := [0, 1] } else none
  threads ref :=
    if ref = 0 then some { handle := 0, process := some 0 }
    else if ref = 1 then some { handle := 1, process := some 0 }
    else none
  groups ref := if ref = 0 then some { groupID := 1, session := some 0, processes := [0] } else none
  sessions ref := if ref = 0 then some { sessionID := 1, groups := [0] } else none
  nextPID := firstDynamicID
  nextRef := 2

end ProcessTables

end PadOS.Kernel
