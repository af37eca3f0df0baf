/-
The lock and the socket of a runtime directory, and the processes that start brokers there.

A broker runs `acquireLock` and the rest of `main`; a client runs `ensureBroker`, which may
spawn one.  Each of their system calls and each connect probe is a step of its own, so a
run is any interleaving of any number of processes.  A process can start and die at any
time, and a pid can come back once its process is gone.

The lock holds a pid, or a text that is no pid.  The socket file is served by the
process that bound it until that process closes or dies; after that the file is stale.  A
wait of the source is a step that may be taken again: whether its deadline has passed is
part of the event, and so is whether a process outside this model has a pid.
-/
import PiMesh.Js.Map

namespace PiMesh

open Js

abbrev Pid := Nat

def lockAttempts : Nat := 3
def lockRetryMax : Nat := 3
def ensureBrokerMaxPolls : Nat := 60

/-- The step a broker process makes next; the number counts its attempts at the lock. -/
inductive BrokerAt where
  /-- `writeFileSync(lockPath, pid, { flag: "wx" })`. -/
  | create (attempt : Nat)
  /-- `lockHeldByUs`. -/
  | confirm (attempt : Nat)
  | read (attempt : Nat)
  /-- `socketServes`. -/
  | verify (attempt : Nat)
  | unlink (attempt : Nat)
  /-- `acquireLock` has returned true: `existsSync(sockPath)`. -/
  | sockExists
  | probe
  | unlinkSock
  | bind
  | serving
  /-- `shutdown`, once the server is closed. -/
  | dropSock
  | dropLock
  deriving DecidableEq

/-- `acquireLock` returned true, and the lock was not given back since. -/
def BrokerAt.holds : BrokerAt → Bool
  | .create _ | .confirm _ | .read _ | .verify _ | .unlink _ => false
  | _ => true

/-- The step a call of `ensureBroker` makes next. -/
inductive EnsureAt where
  | probe (attempt : Nat)
  /-- The second probe where spawning is disabled. -/
  | reprobe
  | create (attempt : Nat)
  | spawn (attempt : Nat)
  /-- `spawnBroker` writes the pid of its child into the lock. -/
  | stamp (attempt : Nat) (child : Pid)
  /-- The spawn threw: the lock is unlinked and the call throws. -/
  | unspawn
  | read (attempt : Nat)
  | unlink (attempt : Nat)
  | poll (attempt : Nat) (created : Bool) (left : Nat)
  /-- The call made the lock itself and nobody answered. -/
  | clean (attempt : Nat)
  | recheck (attempt : Nat)
  | cleanForeign (attempt : Nat)
  deriving DecidableEq

/-- How `spawn` can end. -/
inductive SpawnOutcome where
  | throws
  /-- No process came up: `child.pid` is undefined. -/
  | noPid
  | child (pid : Pid)
  deriving DecidableEq

/-- A runtime directory and what runs on it. -/
structure RuntimeDir where
  /-- The lock file: the pid in it, if it holds one. -/
  lock : Option (Option Pid)
  /-- The socket file: the process that listens on it, if one does. -/
  sock : Option (Option Pid)
  brokers : Map Pid BrokerAt
  /-- The calls of `ensureBroker`, each with whether spawning is disabled. -/
  clients : Map Nat (Bool × EnsureAt)

inductive LockEvent where
  /-- A broker process starts. -/
  | start (pid : Pid)
  /-- Its next step; `late` is whether a deadline has passed, `other` whether a process
  outside the model has the pid in question. -/
  | broker (pid : Pid) (late other : Bool)
  /-- SIGTERM or SIGINT. -/
  | shutdown (pid : Pid)
  /-- The process is gone, at any point. -/
  | die (pid : Pid)
  | ensure (c : Nat) (noAutoSpawn : Bool)
  | client (c : Nat) (other : Bool) (spawned : SpawnOutcome)
  deriving DecidableEq

namespace RuntimeDir

/-- Whether a probe of the socket path succeeds. -/
def serves (st : RuntimeDir) : Bool :=
  match st.sock with
  | some (some _) => true
  | _ => false

/-- `pidAlive`. -/
def pidAlive (st : RuntimeDir) (other : Bool) (pid : Pid) : Bool := st.brokers.has pid || other

def goto (st : RuntimeDir) (pid : Pid) (next : BrokerAt) : RuntimeDir :=
  { st with brokers := st.brokers.set pid next }

/-- A socket nobody listens on any more. -/
def abandon (st : RuntimeDir) (pid : Pid) : RuntimeDir :=
  { st with sock := if st.sock = some (some pid) then some none else st.sock }

/-- The process ends: `process.exit`, a fatal error or a kill. -/
def exit (st : RuntimeDir) (pid : Pid) : RuntimeDir :=
  { st.abandon pid with brokers := st.brokers.delete pid }

/-- The next turn of the loop of `acquireLock`, or `return false` and the end of `main`. -/
def retry (st : RuntimeDir) (pid : Pid) (attempt : Nat) : RuntimeDir :=
  if attempt + 1 < lockAttempts then st.goto pid (.create (attempt + 1)) else st.exit pid

/-- One step of `main`. -/
def stepBroker (st : RuntimeDir) (pid : Pid) (late other : Bool) : BrokerAt → RuntimeDir
  | .create n =>
      if st.lock = none then { st with lock := some (some pid) }.goto pid (.confirm n)
      else st.goto pid (.read n)
  | .confirm n => if st.lock = some (some pid) then st.goto pid .sockExists else st.retry pid n
  | .read n =>
      match st.lock with
      | some (some holder) =>
          if holder ≠ pid ∧ st.pidAlive other holder = true then st.goto pid (.verify n)
          else st.goto pid (.unlink n)
      | _ => st.goto pid (.unlink n)
  | .verify n =>
      if st.serves then st.exit pid
      else if late then st.goto pid (.unlink n)
      else st
  | .unlink n => { st with lock := none }.retry pid n
  | .sockExists => if st.sock = none then st.goto pid .bind else st.goto pid .probe
  | .probe => if st.serves then st.exit pid else st.goto pid .unlinkSock
  | .unlinkSock => { st with sock := none }.goto pid .bind
  -- a path that is taken makes `listen` fail, and `main` with it
  | .bind => if st.sock = none then { st with sock := some (some pid) }.goto pid .serving else st.exit pid
  | .serving => st
  | .dropSock => { st with sock := none }.goto pid .dropLock
  | .dropLock => { st with lock := none }.exit pid

def gotoClient (st : RuntimeDir) (c : Nat) (noSpawn : Bool) (next : EnsureAt) : RuntimeDir :=
  { st with clients := st.clients.set c (noSpawn, next) }

/-- `ensureBroker` returns or throws. -/
def leave (st : RuntimeDir) (c : Nat) : RuntimeDir := { st with clients := st.clients.delete c }

/-- The next turn of the loop of `ensureBroker`, or its last `throw`. -/
def again (st : RuntimeDir) (c : Nat) (noSpawn : Bool) (attempt : Nat) : RuntimeDir :=
  if attempt + 1 < lockRetryMax then st.gotoClient c noSpawn (.probe (attempt + 1)) else st.leave c

/-- After the last poll of an attempt. -/
def polled (st : RuntimeDir) (c : Nat) (noSpawn : Bool) (attempt : Nat) (created : Bool)
    (left : Nat) : RuntimeDir :=
  match left with
  | left + 1 => st.gotoClient c noSpawn (.poll attempt created left)
  | 0 => st.gotoClient c noSpawn (if created then .clean attempt else .recheck attempt)

/-- One step of `ensureBroker`; nothing where a child would have the pid of a live process. -/
def stepClient (st : RuntimeDir) (c : Nat) (noSpawn other : Bool) (spawned : SpawnOutcome) :
    EnsureAt → Option RuntimeDir
  | .probe n =>
      some (if st.serves then st.leave c
        else if noSpawn then st.gotoClient c noSpawn .reprobe
        else st.gotoClient c noSpawn (.create n))
  | .reprobe => some (st.leave c)
  | .create n =>
      some (if st.lock = none then { st with lock := some none }.gotoClient c noSpawn (.spawn n)
        else st.gotoClient c noSpawn (.read n))
  | .spawn n =>
      match spawned with
      | .throws => some (st.gotoClient c noSpawn .unspawn)
      | .noPid => some (st.polled c noSpawn n true ensureBrokerMaxPolls)
      | .child pid =>
          if st.brokers.has pid then none
          else some ((st.goto pid (.create 0)).gotoClient c noSpawn (.stamp n pid))
  | .stamp n child =>
      some ({ st with lock := some (some child) }.polled c noSpawn n true ensureBrokerMaxPolls)
  | .unspawn => some ({ st with lock := none }.leave c)
  | .read n =>
      match st.lock with
      | some (some pid) =>
          some (if st.pidAlive other pid then st.polled c noSpawn n false ensureBrokerMaxPolls
            else st.gotoClient c noSpawn (.unlink n))
      | _ => some (st.gotoClient c noSpawn (.unlink n))
  | .unlink n => some ({ st with lock := none }.again c noSpawn n)
  | .poll n created left =>
      some (if st.serves then st.leave c else st.polled c noSpawn n created left)
  | .clean n => some ({ st with lock := none }.again c noSpawn n)
  | .recheck n =>
      some (if st.serves then st.again c noSpawn n else st.gotoClient c noSpawn (.cleanForeign n))
  | .cleanForeign n => some ({ st with lock := none }.again c noSpawn n)

/-- One step of one process; nothing where it is not its turn. -/
def step (st : RuntimeDir) : LockEvent → Option RuntimeDir
  | .start pid => if st.brokers.has pid then none else some (st.goto pid (.create 0))
  | .broker pid late other => (st.brokers.get? pid).map (st.stepBroker pid late other)
  | .shutdown pid =>
      if st.brokers.get? pid = some .serving then some ((st.abandon pid).goto pid .dropSock) else none
  | .die pid => if st.brokers.has pid then some (st.exit pid) else none
  | .ensure c noSpawn =>
      if st.clients.has c then none else some (st.gotoClient c noSpawn (.probe 0))
  | .client c other spawned =>
      match st.clients.get? c with
      | none => none
      | some (noSpawn, at_) => st.stepClient c noSpawn other spawned at_

/-- A directory with nobody on it, whatever an earlier life has left there. -/
def deserted (lock : Option (Option Pid)) (sockLeft : Bool) : RuntimeDir where
  lock := lock
  sock := if sockLeft then some none else none
  brokers := .empty
  clients := .empty

end RuntimeDir

def LockStep (st : RuntimeDir) (e : LockEvent) (st' : RuntimeDir) : Prop := st.step e = some st'

end PiMesh
