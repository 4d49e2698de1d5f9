import Mathlib.Data.Int.Notation
import Mathlib.Tactic.Common

/-!
# Messages of the wire protocol

The data of `pg-wired`: the frontend and backend messages of PostgreSQL's protocol version 3
(`FrontendMsg`, `BackendMsg`), rows as they arrive from the server, with the positions of the cells
in their body (`RawRow`), and what the server and the connection can report (`PgError`,
`PgWireError`).
-/

namespace Resolute

/-- A byte string. -/
abbrev Bytes := List UInt8

/-- The byte of an ASCII character, as in `b'Z'`. -/
def byte (c : Char) : UInt8 := UInt8.ofNat c.toNat

/-- The UTF-8 bytes of a string. -/
def asBytes (s : String) : Bytes := s.toByteArray.data.toList

/-- The string with the given UTF-8 bytes, if they are valid. -/
def fromUtf8 (bs : Bytes) : Option String := String.fromUTF8? ⟨bs.toArray⟩

@[simp] theorem fromUtf8_asBytes (s : String) : fromUtf8 (asBytes s) = some s := by
  simp [fromUtf8, asBytes, String.fromUTF8?, s.isValidUTF8, String.fromUTF8]

theorem asBytes_of_fromUtf8 {bs : Bytes} {s : String} (h : fromUtf8 bs = some s) :
    asBytes s = bs := by
  simp only [fromUtf8, String.fromUTF8?] at h
  split_ifs at h
  cases h
  simp [asBytes, String.fromUTF8]

theorem asBytes_injective : Function.Injective asBytes := fun s t h => by
  have := congrArg fromUtf8 h
  simpa using this

/-- PostgreSQL object identifiers. -/
abbrev Oid := UInt32

/-- Wire format codes. -/
inductive FormatCode where
  | text
  | binary
  deriving DecidableEq, Repr

/-- Frontend (client to server) messages. -/
inductive FrontendMsg where
  /-- Prepare a statement; an empty name is the unnamed statement. -/
  | parse (name sql : Bytes) (paramOids : List Oid)
  /-- Bind parameters to a prepared statement. -/
  | bind (portal statement : Bytes) (paramFormats : List FormatCode)
      (params : List (Option Bytes)) (resultFormats : List FormatCode)
  /-- Execute a bound portal. -/
  | execute (portal : Bytes) (maxRows : Int32)
  /-- End of an extended-query group. -/
  | sync
  /-- The simple query protocol. -/
  | query (sql : Bytes)
  /-- Describe a statement (`S`) or a portal (`P`). -/
  | describe (kind : UInt8) (name : Bytes)
  /-- Close a statement (`S`) or a portal (`P`). -/
  | close (kind : UInt8) (name : Bytes)
  | flush
  | saslInitialResponse (mechanism data : Bytes)
  | saslResponse (data : Bytes)
  | copyData (data : Bytes)
  | copyDone
  | copyFail (message : Bytes)
  /-- Close the connection. -/
  | terminate
  deriving DecidableEq, Repr

/-- The number of cells a row stores inline. -/
def cellInlineCap : ℕ := 12

/-- Cell positions of a row: `(offset, length)` pairs, with length `-1` for NULL. -/
inductive Cells where
  | inline (data : Vector (UInt32 × Int32) cellInlineCap) (len : UInt8)
  | heap (entries : List (UInt32 × Int32))
  deriving DecidableEq, Repr

/-- A `DataRow` as received: its body and the positions of its cells in it. -/
structure RawRow where
  body : Bytes
  cells : Cells
  deriving DecidableEq, Repr

/-- A column of a `RowDescription`. -/
structure FieldDescription where
  name : String
  tableOid : Oid
  columnId : Int16
  typeOid : Oid
  typeSize : Int16
  typeModifier : Int32
  format : FormatCode
  deriving DecidableEq, Repr

/-- The fields of an `ErrorResponse` or `NoticeResponse` that are kept. -/
structure PgError where
  severity : String := ""
  code : String := ""
  message : String := ""
  detail : Option String := none
  hint : Option String := none
  position : Option String := none
  deriving DecidableEq, Repr

/-- Backend (server to client) messages. -/
inductive BackendMsg where
  | authenticationOk
  | authenticationCleartextPassword
  | authenticationMd5Password (salt : Vector UInt8 4)
  | authenticationSASL (mechanisms : List String)
  | authenticationSASLContinue (data : Bytes)
  | authenticationSASLFinal (data : Bytes)
  | parameterStatus (name value : String)
  | backendKeyData (pid secret : Int32)
  | readyForQuery (status : UInt8)
  | parseComplete
  | bindComplete
  | closeComplete
  | noData
  | commandComplete (tag : String)
  | dataRow (row : RawRow)
  | rowDescription (fields : List FieldDescription)
  | errorResponse (fields : PgError)
  | noticeResponse (fields : PgError)
  | emptyQueryResponse
  | parameterDescription (typeOids : List Oid)
  | notificationResponse (pid : Int32) (channel payload : String)
  | portalSuspended
  | copyInResponse (format : UInt8) (columnFormats : List Int16)
  | copyOutResponse (format : UInt8) (columnFormats : List Int16)
  | copyData (data : Bytes)
  | copyDone
  deriving DecidableEq, Repr

/-- The kinds of I/O error the wire layer tells apart. -/
inductive ErrorKind where
  | brokenPipe
  | other (code : ℤ)
  deriving DecidableEq, Repr

/-- Errors of the wire layer. -/
inductive PgWireError where
  /-- A local I/O failure. -/
  | ioError (kind : ErrorKind) (message : String)
  /-- The server sent an `ErrorResponse`. -/
  | pg (fields : PgError)
  /-- A message could not be parsed. -/
  | protocol (message : String)
  /-- End of stream, or a task of the connection is gone. -/
  | connectionClosed
  deriving DecidableEq, Repr

/-- The result of one `read_msg`. -/
abbrev ReadResult := Except PgWireError BackendMsg

namespace BackendMsg

/-- The message ends a response group. -/
def isReady : BackendMsg → Bool
  | readyForQuery _ => true
  | _ => false

/-- The message is an `ErrorResponse`. -/
def isError : BackendMsg → Bool
  | errorResponse _ => true
  | _ => false

end BackendMsg

namespace RawRow

/-- A row with one cell, the whole of `body`; used for chunks of COPY data. -/
def fromFullBody (body : Bytes) : RawRow where
  body := body
  cells := .inline ((Vector.replicate cellInlineCap (0, 0)).set 0 (0, Int32.ofNat body.length)
    (by decide)) 1

end RawRow

end Resolute
