/-
Room membership.

Membership is stored twice: the room's set of aliases and the record's map of rooms.
The functions below are those of `broker/rooms.ts`, on the two tables they touch.
-/
import PiMesh.Broker.State

namespace PiMesh

open Js

variable {ν : Type} [Number ν] [DecidableEq ν]

/-- The table of rooms. -/
abbrev RoomTable (ν : Type) := Map (RoomKey ν) (Js.Set String)

/-- `isValidRoom` on whatever the key is: the pattern tests its string form. -/
def isValidRoomKey (key : RoomKey ν) : Except JsError Bool :=
  match coerceString key.value with
  | none => .error .noPrimitive
  | some s => .ok (isValidRoom s)

/-- `joinRoom`: the refusal if there is one, and the tables afterwards. -/
def joinRoom (cfg : MeshConfig) (rooms : RoomTable ν) (peer : PeerRecord ν) (roomId : RoomKey ν)
    (role : MeshRole) : Except JsError (Option MeshErrorCode × RoomTable ν × PeerRecord ν) :=
  match isValidRoomKey roomId with
  | .error e => .error e
  | .ok false => .ok (some .invalidRoom, rooms, peer)
  | .ok true =>
      if peer.rooms.has roomId then
        -- role update on re-join
        .ok (none, rooms, { peer with rooms := peer.rooms.set roomId role })
      else if peer.rooms.size ≥ cfg.maxRoomsPerPeer then .ok (some .invalidRoom, rooms, peer)
      else
        let members := (rooms.get? roomId).getD Js.Set.empty
        if !members.has peer.name && decide (members.size ≥ maxPeersPerRoom) then
          .ok (some .invalidRoom, rooms.set roomId members, peer)
        else
          .ok (none, rooms.set roomId (members.add peer.name),
            { peer with rooms := peer.rooms.set roomId role })

/-- Take an alias out of a room, and the room out of the table when nobody is left. -/
def removeMember (rooms : RoomTable ν) (roomId : RoomKey ν) (name : String) : RoomTable ν :=
  match rooms.get? roomId with
  | none => rooms
  | some members =>
      let members := members.delete name
      if members.size = 0 then rooms.delete roomId else rooms.set roomId members

/-- `leaveRoom`. -/
def leaveRoom (rooms : RoomTable ν) (peer : PeerRecord ν) (roomId : RoomKey ν) :
    Option MeshErrorCode × RoomTable ν × PeerRecord ν :=
  if !peer.rooms.has roomId then (some .notMember, rooms, peer)
  else (none, removeMember rooms roomId peer.name,
    { peer with rooms := peer.rooms.delete roomId })

/-- `detachFromRooms`; the record's own map is cleared by the caller's losing it. -/
def detachFromRooms (rooms : RoomTable ν) (peer : PeerRecord ν) : RoomTable ν :=
  peer.rooms.keys.foldl (fun rooms roomId => removeMember rooms roomId peer.name) rooms

/-- One entry of `peersSnapshot`. -/
def peerInfo (rt : Runtime) (role : Option MeshRole) (p : PeerRecord ν) : Json ν :=
  .obj (([("alias", some (.str p.name)),
    ("rooms", some (.arr (p.rooms.keys.map RoomKey.value))),
    ("role", role.map fun r => .str r.text),
    ("since", some (.str (rt.toISOString p.connectedAt))),
    ("lastSeenAt", some (.str (rt.toISOString p.lastSeenAt))),
    ("reservations", if p.reservations.isEmpty then none else some (.arr p.reservations)),
    ("clientVersion", p.clientVersion.map .str),
    ("activity", p.activity.map fun a =>
      .obj [("state", .str a.state.text), ("at", .str a.since)]),
    ("via", p.via.map .str),
    ("caps", if p.caps.isEmpty then none else some (jsonStrs p.caps)),
    ("proto", some (.num (Number.ofInteger p.proto)))] :
    List (String × Option (Json ν))).filterMap fun e => e.2.map (e.1, ·))

/-- `peersSnapshot`. -/
def peersSnapshot (rt : Runtime) (peers : Map String (PeerRecord ν)) (room : Option String) :
    List (Json ν) :=
  peers.values.filterMap fun p =>
    if !p.helloDone then none
    else
      match room with
      | none => some (peerInfo rt (p.rooms.get? (.ofString defaultRoom)) p)
      | some r =>
          if !p.rooms.has (.ofString r) then none
          else some (peerInfo rt (p.rooms.get? (.ofString r)) p)

end PiMesh
