import Mathlib.Tactic

/-!
`common/protocol.hpp`: the strings, sizes, message types and status codes
shared by trackers and clients.

A `std::string` is the list of its bytes; the byte order of `compare` on lists
is the order of `std::string`, and with it the order of `std::map` and
`std::set`.
-/

namespace P2PShare

/-- A `std::string`. -/
abbrev Str := List UInt8

/-- `PIECE_SIZE`: the size of one data block to seed. -/
def pieceSize : ℕ := 512 * 1024

/-- `MAX_PAYLOAD`: a piece and some framing slack. -/
def maxPayload : ℕ := pieceSize + 8192

/-- `MsgType`: the message opcodes. -/
inductive MsgType
  | createUser | login | logout | createGroup | joinGroup | leaveGroup | listGroups
  | listRequests | acceptRequest | uploadFile | listFiles | getFileMeta | stopShare | havePieces
  | response
  | pieceRequest | pieceData | bitfieldRequest | bitfieldData
  | syncOp | syncAck | syncCatchup | syncHello | syncSnapshotRequest | syncSnapshotData
deriving DecidableEq, Repr

namespace MsgType

/-- The opcode on the wire: `0x01xx` for requests, `0x02xx` for responses,
`0x03xx` between clients, `0x04xx` between trackers. -/
def code : MsgType → UInt16
  | createUser => 0x0101
  | login => 0x0102
  | logout => 0x0103
  | createGroup => 0x0104
  | joinGroup => 0x0105
  | leaveGroup => 0x0106
  | listGroups => 0x0107
  | listRequests => 0x0108
  | acceptRequest => 0x0109
  | uploadFile => 0x010A
  | listFiles => 0x010B
  | getFileMeta => 0x010C
  | stopShare => 0x010D
  | havePieces => 0x010E
  | response => 0x0201
  | pieceRequest => 0x0301
  | pieceData => 0x0302
  | bitfieldRequest => 0x0303
  | bitfieldData => 0x0304
  | syncOp => 0x0401
  | syncAck => 0x0402
  | syncCatchup => 0x0403
  | syncHello => 0x0404
  | syncSnapshotRequest => 0x0405
  | syncSnapshotData => 0x0406

/-- The message type of an opcode, if it is one. -/
def ofCode (c : UInt16) : Option MsgType :=
  [createUser, login, logout, createGroup, joinGroup, leaveGroup, listGroups, listRequests,
    acceptRequest, uploadFile, listFiles, getFileMeta, stopShare, havePieces, response,
    pieceRequest, pieceData, bitfieldRequest, bitfieldData, syncOp, syncAck, syncCatchup,
    syncHello, syncSnapshotRequest, syncSnapshotData].find? fun t => t.code = c

@[simp] lemma ofCode_code (t : MsgType) : ofCode t.code = some t := by
  cases t <;> rfl

/-- An opcode is that of the message type found for it. -/
lemma eq_code {c : UInt16} {t : MsgType} (h : ofCode c = some t) : c = t.code := by
  have hfound := List.find?_some h
  simpa using Eq.symm (of_decide_eq_true hfound)

lemma code_injective : Function.Injective code := fun t t' h => by
  simpa using congrArg ofCode h

end MsgType

/-- `Status`: the outcome of a request. -/
inductive Status
  | ok | err | notLoggedIn | badCredentials | alreadyExists | notFound | notOwner | notMember
  | notImplemented | malformed
deriving DecidableEq, Repr

/-- The status code in the header of a response. -/
def Status.code : Status → UInt16
  | ok => 0
  | err => 1
  | notLoggedIn => 2
  | badCredentials => 3
  | alreadyExists => 4
  | notFound => 5
  | notOwner => 6
  | notMember => 7
  | notImplemented => 8
  | malformed => 9

end P2PShare
