/-
The offline queues: cap, time to live, flush.

Every function that drops entries returns them, so that the broker can tell the
senders.  The functions work on the two tables they touch, the queues and the
counters.

Two of them may throw.  `purgeAllExpired` and `flushMailbox` are what they come to where
they do not; `purgeLoop` and `flushMailboxThrows` say when they do, and what they leave is gone
from the queues by then.
-/
import PiMesh.Broker.State

namespace PiMesh

open Js

variable {ν : Type} [Number ν]

abbrev MailboxTable (ν : Type) := Map String (List (StoredMsg ν))

/-- The queues and the counters, which `mailbox.ts` changes together. -/
structure Mail (ν : Type) where
  mailbox : MailboxTable ν
  stats : BrokerStats

/-- An entry within its time to live. -/
def isFresh (ttlMs now : Int) (m : StoredMsg ν) : Bool := now - m.enqueuedAt ≤ ttlMs

/-- `partitionExpired`: the fresh and the expired entries of one queue, and the tables
with the expired ones gone. -/
def partitionExpired (mail : Mail ν) (name : String) (ttlMs now : Int) :
    List (StoredMsg ν) × List (StoredMsg ν) × Mail ν :=
  let queue := (mail.mailbox.get? name).getD []
  let fresh := queue.filter (isFresh ttlMs now)
  let dropped := queue.filter fun m => !isFresh ttlMs now m
  let stats := { mail.stats with mailboxDropped := mail.stats.mailboxDropped + dropped.length }
  let mailbox := if fresh.isEmpty then mail.mailbox.delete name else mail.mailbox.set name fresh
  (fresh, dropped, ⟨mailbox, stats⟩)

/-- `enqueueMailbox`: what was dropped to make room, and the tables. -/
def enqueueMailbox (mail : Mail ν) (cfg : MeshConfig) (name : String) (msg : StoredMsg ν)
    (now : Int) : List (StoredMsg ν) × Mail ν :=
  let (fresh, dropped, mail) := partitionExpired mail name cfg.mailboxTtlMs now
  let queue := fresh ++ [msg]
  -- the loop shifts the oldest entry until the queue is within the cap
  let excess := queue.length - cfg.mailboxCap
  let stats := { mail.stats with mailboxDropped := mail.stats.mailboxDropped + excess }
  (dropped ++ queue.take excess, ⟨mail.mailbox.set name (queue.drop excess), stats⟩)

/-- The loop of `purgeAllExpired`: whether it comes to its end, and the tables where it ends.
`push(...dropped)` throws for more entries than a call takes arguments. -/
def purgeLoop (cfg : MeshConfig) (now : Int) : List String → Mail ν → Bool × Mail ν
  | [], mail => (true, mail)
  | name :: rest, mail =>
      let (_, dropped, mail) := partitionExpired mail name cfg.mailboxTtlMs now
      if dropped.length ≤ (Number.limits ν).arguments then purgeLoop cfg now rest mail
      else (false, mail)

/-- `purgeAllExpired`, where no `push` throws. -/
def purgeAllExpired (mail : Mail ν) (cfg : MeshConfig) (now : Int) :
    List (StoredMsg ν) × Mail ν :=
  mail.mailbox.keys.foldl (fun acc name =>
    let (_, dropped, mail) := partitionExpired acc.2 name cfg.mailboxTtlMs now
    (acc.1 ++ dropped, mail)) ([], mail)

/-- `mailboxSize`. -/
def mailboxSize (mail : Mail ν) (cfg : MeshConfig) (name : String) (now : Int) : Nat × Mail ν :=
  let (fresh, _, mail) := partitionExpired mail name cfg.mailboxTtlMs now
  (fresh.length, mail)

/-- The frame a stored message is delivered as. -/
def mailboxFrame (rt : Runtime) (m : StoredMsg ν) : Members ν :=
  withMember (withMember m.frame "type" (.str MeshFrameType.mailbox.text)) "queuedAt"
    (.str (rt.toISOString m.enqueuedAt))

/-- A time that `toISOString` takes. -/
def inDateRange (t : Int) : Bool := t.natAbs ≤ 8640000000000000

/-- `flushMailbox` throws for a message with a time out of range, the tables as below. -/
def flushMailboxThrows (mail : Mail ν) (cfg : MeshConfig) (name : String) (now : Int) : Bool :=
  (partitionExpired mail name cfg.mailboxTtlMs now).1.any fun m => !inDateRange m.enqueuedAt

/-- `flushMailbox`: the messages to deliver in order, the expired ones, and the tables.
The counter of deliveries moves here, before anything is written. -/
def flushMailbox (mail : Mail ν) (cfg : MeshConfig) (name : String) (now : Int) :
    List (StoredMsg ν) × List (StoredMsg ν) × Mail ν :=
  let (fresh, dropped, mail) := partitionExpired mail name cfg.mailboxTtlMs now
  let stats := { mail.stats with mailboxDelivered := mail.stats.mailboxDelivered + fresh.length }
  (fresh, dropped, ⟨mail.mailbox.delete name, stats⟩)

end PiMesh
