import Resolute.Conn.Tasks

/-!
# Accounting for notifications

A notification can come between any two messages.  `collect_rows` and `stream_rows` hand it to the
notification channel of the connection, and count it as dropped if the channel does not take it.
The other loops of the reader task (`drain_until_ready`, also after an error, and the two collectors
of COPY) have a catch-all arm, and a notification they meet is gone without a trace.

Each notification that was taken off the socket should have been forwarded once or counted once
(`Accounted`).  The account is right all along a run exactly if no read takes a notification in a
loop with a catch-all arm (`Forwarding`, `accounted_iff`).
-/

namespace Resolute.Conn.Notifications

/-- A `NotificationResponse`. -/
structure Notification where
  pid : Int32
  channel : String
  payload : String
  deriving DecidableEq, Repr

/-- The notification of a message. -/
def notification? : BackendMsg → Option Notification
  | .notificationResponse pid channel payload => some ⟨pid, channel, payload⟩
  | _ => none

/-- The notification of an effect. -/
def notified? : Emit → Option Notification
  | .notify pid channel payload => some ⟨pid, channel, payload⟩
  | _ => none

/-- The capacity of the notification channel. -/
def notificationCap : ℕ := 4096

/-- A connection with its notification channel. -/
structure State (τ : Type) where
  conn : Conn.State τ
  /-- The notifications in the channel, oldest first. -/
  queue : List Notification
  /-- The receiver of the channel is alive, in the connection or with the application. -/
  receiver : Bool
  /-- `dropped_notifications`. -/
  dropped : ℕ
  /-- The notifications the channel has accepted. -/
  forwarded : List Notification
  /-- The notifications the reader has taken off the socket. -/
  taken : List Notification

/-- The steps of a connection, and of the holder of the receiver. -/
inductive Label (τ : Type) where
  | task (l : Conn.Label τ)
  /-- The application receives a notification. -/
  | receive
  | dropReceiver
  deriving DecidableEq

/-- The loop hands notifications on. -/
def forwards : Collect → Bool
  | .rows _ _ _ | .stream _ _ _ => true
  | _ => false

/-- What a pass of a collector's loop does besides. -/
def effectsOf : Fed → List Emit
  | .more effects _ | .done effects _ => effects

section

variable {τ : Type}

namespace State

/-- `AsyncConn::new`. -/
def init : State τ := ⟨.init, [], true, 0, [], []⟩

/-- `notification_tx.try_send`, with the counter. -/
def trySend (s : State τ) (n : Notification) : State τ :=
  if s.receiver && decide (s.queue.length < notificationCap) then
    { s with queue := s.queue ++ [n], forwarded := s.forwarded ++ [n] }
  else { s with dropped := s.dropped + 1 }

/-- The next message, and the collector that will be fed with it. -/
def nextRead (s : State τ) : Option (Collect × BackendMsg) :=
  match s.conn.reader, s.conn.inbound with
  | .collecting _ c _ _ _, m :: _ => some (c, m)
  | _, _ => none

/-- What becomes of the notification that the reader is about to take. -/
def noteRead (s : State τ) : State τ :=
  match s.nextRead with
  | some (c, m) =>
    let s' := { s with taken := s.taken ++ (notification? m).toList }
    ((effectsOf (c.feedMsg m)).filterMap notified?).foldl trySend s'
  | none => s

end State

/-- One step. -/
def step (s : State τ) : Label τ → Option (State τ)
  | .task .read => (Conn.step s.conn .read).map fun c => { s.noteRead with conn := c }
  | .task l => (Conn.step s.conn l).map fun c => { s with conn := c }
  | .receive => match s.queue with
    | _ :: rest => if s.receiver then some { s with queue := rest } else none
    | [] => none
  | .dropReceiver => if s.receiver then some { s with receiver := false, queue := [] } else none

/-- The connection as a transition system. -/
def noticing (τ : Type) : LTS (State τ) (Label τ) := ⟨step⟩

/-- Each notification taken off the socket was forwarded once, in its order, or counted once. -/
def Accounted (s : State τ) : Prop :=
  s.forwarded.Sublist s.taken ∧ s.forwarded.length + s.dropped = s.taken.length

/-- No notification is taken in a loop with a catch-all arm. -/
def Forwarding (s : State τ) : Label τ → Prop
  | .task .read => match s.nextRead with
    | some (c, m) => (notification? m).isSome = true → forwards c = true
    | none => True
  | _ => True

instance (s : State τ) (l : Label τ) : Decidable (Forwarding s l) := by
  unfold Forwarding
  split
  · split <;> infer_instance
  · infer_instance

/-- A loop hands on the notification it is fed with, or does nothing at all. -/
theorem effectsOf_feedMsg (c : Collect) (m : BackendMsg) :
    (effectsOf (c.feedMsg m)).filterMap notified? =
      if forwards c = true then (notification? m).toList else [] := by
  have hrfq : ∀ status, (Collect.noteRfqStatus status).filterMap notified? = [] := by
    intro status
    unfold Collect.noteRfqStatus
    split <;> rfl
  have hheader : ∀ header h, (Collect.sendHeader header h).filterMap notified? = [] := by
    intro header h
    unfold Collect.sendHeader
    split <;> rfl
  cases c with
  | rows fields rows tag => cases m <;> first | exact hrfq _ | rfl
  | stream header rowRx fields =>
    cases m
    case readyForQuery status =>
      simp only [Collect.feedMsg, Collect.streamRows, effectsOf, List.filterMap_append,
        hrfq, hheader]
      rfl
    case dataRow row =>
      cases rowRx <;> simp only [Collect.feedMsg, Collect.streamRows, effectsOf, if_true,
        Bool.false_eq_true, if_false, List.filterMap_append, hheader] <;> rfl
    case commandComplete tag => exact hheader _ _
    case errorResponse e => cases header <;> rfl
    all_goals rfl
  | drain | copyIn tag | copyOut chunks tag | drainErr fields | streamDrain =>
    cases m <;> first | exact hrfq _ | rfl

/-- The channel takes a notification, or the counter does. -/
theorem trySend_account (s : State τ) (n : Notification) {earlier : List Notification}
    (h : s.forwarded.Sublist earlier) :
    (s.trySend n).taken = s.taken ∧ (s.trySend n).forwarded.Sublist (earlier ++ [n]) ∧
      (s.trySend n).forwarded.length + (s.trySend n).dropped =
        s.forwarded.length + s.dropped + 1 := by
  unfold State.trySend
  split
  · refine ⟨rfl, h.append (List.Sublist.refl [n]), ?_⟩
    simp only [List.length_append, List.length_singleton]
    omega
  · exact ⟨rfl, h.trans (List.sublist_append_left _ _), by simp only; omega⟩

/-- What holds in every run: no notification is forwarded or counted that was not taken. -/
structure Sound (s : State τ) : Prop where
  sublist : s.forwarded.Sublist s.taken
  le : s.forwarded.length + s.dropped ≤ s.taken.length

/-- A read keeps the account unless it takes a notification in a loop with a catch-all arm. -/
theorem Sound.noteRead {s : State τ} (h : Sound s) :
    Sound s.noteRead ∧ (s.forwarded.length + s.dropped = s.taken.length →
      (s.noteRead.forwarded.length + s.noteRead.dropped = s.noteRead.taken.length ↔
        Forwarding s (.task .read))) := by
  unfold State.noteRead Forwarding
  cases s.nextRead with
  | none => exact ⟨h, fun ha => iff_of_true ha trivial⟩
  | some cm =>
    obtain ⟨c, m⟩ := cm
    simp only [effectsOf_feedMsg]
    cases hm : notification? m with
    | none =>
      have hsame : ((if forwards c = true then (none : Option Notification).toList else []).foldl
          State.trySend { s with taken := s.taken ++ (none : Option Notification).toList }) =
              s := by
        simp
      rw [hsame]
      exact ⟨h, fun ha => iff_of_true ha (by simp)⟩
    | some n =>
      cases hc : forwards c with
      | true =>
        obtain ⟨htaken, hsub, hcount⟩ :=
          trySend_account { s with taken := s.taken ++ [n] } n h.sublist
        simp only [if_true, Option.toList_some, List.foldl_cons, List.foldl_nil]
        simp only at htaken hsub hcount
        have hlen : (s.taken ++ [n]).length = s.taken.length + 1 := by simp
        have hle := h.le
        refine ⟨⟨by rw [htaken]; exact hsub, by rw [htaken]; omega⟩, fun ha => ?_⟩
        rw [htaken, hcount, hlen]
        exact iff_of_true (by omega) (by simp)
      | false =>
        simp only [Bool.false_eq_true, if_false, Option.toList_some, List.foldl_nil,
          Option.isSome_some, true_implies, iff_false]
        have hle := h.le
        refine ⟨⟨h.sublist.trans (List.sublist_append_left _ _), ?_⟩, fun ha => ?_⟩
        · simp only [List.length_append, List.length_singleton]
          omega
        · simp only [List.length_append, List.length_singleton]
          omega

theorem sound_step {s s' : State τ} {l : Label τ} (h : Sound s)
    (hstep : (noticing τ).step s l = some s') :
    Sound s' ∧ (Accounted s → (Accounted s' ↔ Forwarding s l)) := by
  -- a step that reads nothing changes neither what is taken nor what is forwarded or counted
  have hother : ∀ {l}, Forwarding s l → s'.taken = s.taken → s'.forwarded = s.forwarded →
      s'.dropped = s.dropped → Sound s' ∧ (Accounted s → (Accounted s' ↔ Forwarding s l)) := by
    intro l hl htaken hforwarded hdropped
    refine ⟨⟨by rw [htaken, hforwarded]; exact h.sublist, by
      rw [htaken, hforwarded, hdropped]; exact h.le⟩, fun ha => iff_of_true ?_ hl⟩
    rw [Accounted, htaken, hforwarded, hdropped]
    exact ha
  cases l with
  | task l =>
    by_cases hl : l = .read
    · subst hl
      obtain ⟨c, -, rfl⟩ := Option.map_eq_some_iff.1 hstep
      obtain ⟨hsound, hiff⟩ := h.noteRead
      refine ⟨⟨hsound.sublist, hsound.le⟩, fun ha => ?_⟩
      rw [← hiff ha.2]
      exact ⟨fun h' => h'.2, fun h' => ⟨hsound.sublist, h'⟩⟩
    · have hstep' : ((Conn.step s.conn l).map fun c => { s with conn := c }) = some s' := by
        cases l <;> first | exact absurd rfl hl | exact hstep
      obtain ⟨c, -, rfl⟩ := Option.map_eq_some_iff.1 hstep'
      refine hother ?_ rfl rfl rfl
      cases l <;> first | exact absurd rfl hl | exact trivial
  | receive =>
    simp only [noticing, step] at hstep
    split at hstep
    · split_ifs at hstep
      cases hstep
      exact hother trivial rfl rfl rfl
    · cases hstep
  | dropReceiver =>
    simp only [noticing, step] at hstep
    split_ifs at hstep
    cases hstep
    exact hother trivial rfl rfl rfl

/-- **The account.**  All along a run, each notification that was taken off the socket was forwarded
once or counted once, exactly if no read of the run takes one in a loop with a catch-all arm. -/
theorem accounted_iff {ls : List (Label τ)} {s : State τ}
    (h : (noticing τ).exec .init ls = some s) :
    (noticing τ).Along Accounted .init ls ↔
      ((noticing τ).guard Forwarding).exec .init ls = some s :=
  have hinit : Sound (State.init : State τ) := ⟨List.Sublist.refl _, Nat.le_refl _⟩
  LTS.along_iff_exec_guard (R := Sound) (fun _ _ _ hs hstep => (sound_step hs hstep).1)
    (fun _ _ _ hs ha hstep => (sound_step hs hstep).2 ha) hinit ⟨List.Sublist.refl _, rfl⟩ h

end

/-- A request with the given collector, whose response is a notification and `ReadyForQuery`. -/
def notifiedRun (collector : ResponseCollector) : List (Label Unit) :=
  ([.accept { messages := [.query (asBytes "SELECT 1")], collector := collector, tag := () }, .recv,
    .startWrite, .transmit, .writeDone, .enqueue, .notify, .lock,
    .answer [.notificationResponse 7 "jobs" "42", .readyForQuery (byte 'I')], .read, .read] :
    List (Conn.Label Unit)).map Label.task

theorem accounted_iff_rows :
    ∃ s, (noticing Unit).exec .init (notifiedRun .rows) = some s ∧
      ((noticing Unit).Along Accounted .init (notifiedRun .rows) ↔
        ((noticing Unit).guard Forwarding).exec .init (notifiedRun .rows) = some s) :=
  have h : (noticing Unit).exec .init (notifiedRun .rows) = some _ := rfl
  ⟨_, h, accounted_iff h⟩

/-- A notification in the response to a simple query is neither forwarded nor counted. -/
theorem lost_in_drain :
    ∃ s, (noticing Unit).Reachable .init s ∧ s.taken = [⟨7, "jobs", "42"⟩] ∧ s.forwarded = [] ∧
      s.dropped = 0 ∧ ¬ Accounted s := by
  have h : (noticing Unit).exec .init (notifiedRun .drain) = some _ := rfl
  refine ⟨_, LTS.reachable_of_exec h, rfl, rfl, rfl, fun ha => ?_⟩
  have hcount := ha.2
  cases hcount

end Resolute.Conn.Notifications
