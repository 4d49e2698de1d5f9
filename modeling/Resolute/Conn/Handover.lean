import Resolute.Wire.Receive
import Resolute.Auth.Startup

/-!
# From startup to the reader task

A connection is set up by a `WireConn`, which reads with a receive buffer of its own.
`AsyncConn::new` takes the stream out of it (`intoStream`), and the reader task starts with an empty
buffer.  What the last read of the `WireConn` brought beyond the messages it has parsed
(`sourceAfter`) goes with its buffer.  So the hand-over is `Lossless` exactly if that buffer is
empty (`lossless_iff`).
-/

namespace Resolute.Conn

/-- What is left to read after `n` messages. -/
def sourceAfter : (n : ℕ) → Source → Option Source
  | 0, s => some s
  | n + 1, s =>
    match (WireConn.recvMsg s).result with
    | .ok _ => sourceAfter n (WireConn.recvMsg s).source
    | .error _ => none

/-- `WireConn::into_stream`, and the buffer that the reader task makes. -/
def intoStream (s : Source) : Source := ⟨[], s.chunks⟩

/-- The `n` messages of the `WireConn` and what the reader task receives from `s` on are what is
received from the whole stream, and no byte is dropped. -/
def Lossless (stream : Source) (n : ℕ) (s : Source) : Prop :=
  (∀ k, results WireConn.recvMsg n stream ++ results readMsg k (intoStream s) =
    results WireConn.recvMsg (n + k) stream) ∧
  (intoStream s).bytes = s.bytes

theorem results_add {n : ℕ} {stream s : Source} (h : sourceAfter n stream = some s) (k : ℕ) :
    results WireConn.recvMsg (n + k) stream =
      results WireConn.recvMsg n stream ++ results WireConn.recvMsg k s := by
  induction n generalizing stream with
  | zero =>
    cases h
    rw [Nat.zero_add]
    rfl
  | succ n ih =>
    rw [sourceAfter] at h
    cases hr : (WireConn.recvMsg stream).result with
    | error e =>
      rw [hr] at h
      cases h
    | ok m =>
      rw [hr] at h
      rw [Nat.add_right_comm, results_succ_ok _ hr, results_succ_ok _ hr, ih h, List.cons_append]

/-- **The hand-over.**  It loses nothing exactly if the `WireConn` has parsed all it has read. -/
theorem lossless_iff {n : ℕ} {chunks : List Bytes} {s : Source}
    (h : sourceAfter n ⟨[], chunks⟩ = some s) : Lossless ⟨[], chunks⟩ n s ↔ s.buf = [] := by
  constructor
  · rintro ⟨-, hbytes⟩
    simpa [intoStream, Source.bytes] using hbytes
  · intro hbuf
    have hsame : intoStream s = s := by
      rw [intoStream, ← hbuf]
    refine ⟨fun k => ?_, by rw [hsame]⟩
    rw [results_add h k, hsame]
    rfl

/-- `AuthenticationOk` and `ReadyForQuery`. -/
def authenticated : Bytes :=
  encodeAll [⟨byte 'R', 8, [0, 0, 0, 0]⟩, ⟨byte 'Z', 5, [byte 'I']⟩]

theorem lossless_authenticated : Lossless ⟨[], [authenticated]⟩ 2 ⟨[], []⟩ :=
  have h : sourceAfter 2 ⟨[], [authenticated]⟩ = some ⟨[], []⟩ := by decide
  (lossless_iff h).2 rfl

/-- A notice, of which three bytes come with the last message of startup. -/
def notice : Bytes := (⟨byte 'N', 9, [byte 'M', byte 'h', byte 'i', 0, 0]⟩ : Frame).encode

/-- Startup succeeds, the notice is part of the stream, and the reader task starts in the middle of
it. -/
theorem notice_cut :
    ∃ conn s,
      Auth.finishStartup Auth.sha256StartupLibs Auth.aliceConfig
        ⟨results WireConn.recvMsg 2 ⟨[], [authenticated ++ notice.take 3, notice.drop 3]⟩,
          fun _ => none⟩ = some (.ok conn) ∧
      sourceAfter 2 ⟨[], [authenticated ++ notice.take 3, notice.drop 3]⟩ = some s ∧
      ¬ Lossless ⟨[], [authenticated ++ notice.take 3, notice.drop 3]⟩ 2 s := by
  refine ⟨_, ⟨notice.take 3, [notice.drop 3]⟩, rfl, by decide, fun h => ?_⟩
  have hnext := h.1 1
  revert hnext
  decide

end Resolute.Conn
