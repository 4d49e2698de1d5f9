import Resolute.Auth.Startup
import Resolute.Wire.Frontend

/-!
# The startup packet

The first packet of a connection names the user, the database and other parameters, each as a name
and a value that are terminated by a zero byte, and ends with an empty name.  The client puts the
strings of its caller into it as they are.  The server takes the packet apart at its zero bytes
(`Grammar.startup`).

Every run of `finish_startup` begins with the packet (`head?_sent`), so what the server makes of it
decides.  Nothing is injected (`NotInjected`) if the server reads the parameters of the caller, and
`notInjected_iff` says when that is: `Grammar.parameters_iff` finds out which parameters are read as
they were written.
-/

namespace Resolute

/-! ### The server's grammar -/

namespace Grammar

/-- Names and values, up to an empty name.  A name has a terminator, so `fuel` may be the length. -/
def parameters : (fuel : ℕ) → Reader (List (Bytes × Bytes))
  | 0 => fun _ => none
  | fuel + 1 => fun bs => do
    let (name, bs) ← cstring bs
    if name = [] then some ([], bs)
    else
      let (value, bs) ← cstring bs
      let (params, bs) ← parameters fuel bs
      some ((name, value) :: params, bs)

/-- A startup packet: the length, which counts itself, the version, and parameters with nothing
behind them. -/
def startup : Reader (List (Bytes × Bytes)) := fun bs => do
  let (len, bs) ← i32 bs
  if len < 8 then none
  else
    let (bs, rest) ← bytes (len.toNatClampNeg - 4) bs
    let (version, bs) ← i32 bs
    if version ≠ 196608 then none
    else
      let (params, left) ← parameters bs.length bs
      if left = [] then some (params, rest) else none

/-- A parameter that a packet can hold. -/
structure ValidParameter (p : Bytes × Bytes) : Prop where
  name_ne_nil : p.1 ≠ []
  name_notMem : 0 ∉ p.1
  value_notMem : 0 ∉ p.2

/-- A name and a value. -/
def parameter (p : Bytes × Bytes) : Bytes := p.1 ++ 0 :: (p.2 ++ [0])

theorem notMem_of_cstring {bs s rest : Bytes} (h : cstring bs = some (s, rest)) : 0 ∉ s := by
  unfold cstring at h
  split_ifs at h
  cases h
  intro hmem
  have hall := List.all_eq_true.mp List.all_takeWhile 0 hmem
  simp at hall

theorem valid_of_parameters {fuel : ℕ} {bs rest : Bytes} {ps : List (Bytes × Bytes)}
    (h : parameters fuel bs = some (ps, rest)) : ∀ p ∈ ps, ValidParameter p := by
  induction fuel generalizing bs ps with
  | zero => cases h
  | succ fuel ih =>
    simp only [parameters, Option.bind_eq_bind, Option.bind_eq_some_iff, Prod.exists] at h
    obtain ⟨name, bs₁, hname, h⟩ := h
    split_ifs at h with hnil
    · cases h
      exact fun p hp => absurd hp List.not_mem_nil
    · simp only [Option.bind_eq_some_iff, Prod.exists] at h
      obtain ⟨value, bs₂, hvalue, ps', bs₃, hps, h⟩ := h
      cases h
      exact List.forall_mem_cons.mpr
        ⟨⟨hnil, notMem_of_cstring hname, notMem_of_cstring hvalue⟩, ih hps⟩

theorem parameters_append {ps : List (Bytes × Bytes)} (h : ∀ p ∈ ps, ValidParameter p) {fuel : ℕ}
    (hfuel : ps.length < fuel) (rest : Bytes) :
    parameters fuel (ps.flatMap parameter ++ 0 :: rest) = some (ps, rest) := by
  induction ps generalizing fuel with
  | nil =>
    obtain ⟨fuel, rfl⟩ := Nat.exists_eq_succ_of_ne_zero (Nat.ne_zero_of_lt hfuel)
    have hempty : cstring (0 :: rest) = some ([], rest) := cstring_append List.not_mem_nil rest
    simp [parameters, hempty]
  | cons p ps ih =>
    obtain ⟨fuel, rfl⟩ := Nat.exists_eq_succ_of_ne_zero (Nat.ne_zero_of_lt hfuel)
    obtain ⟨⟨hne, hname, hvalue⟩, hps⟩ := List.forall_mem_cons.mp h
    simp only [List.length_cons, Nat.succ_lt_succ_iff] at hfuel
    simp only [List.flatMap_cons, parameter, List.append_assoc, List.cons_append, List.nil_append,
      parameters, cstring_append hname, cstring_append hvalue, Option.bind_eq_bind,
      Option.bind_some, if_neg hne, ih hps hfuel]

/-- **The parameters that are read as they were written.** -/
theorem parameters_iff (ps : List (Bytes × Bytes)) :
    parameters (ps.flatMap parameter ++ [0]).length (ps.flatMap parameter ++ [0]) = some (ps, []) ↔
      ∀ p ∈ ps, ValidParameter p := by
  refine ⟨valid_of_parameters, fun h => parameters_append h ?_ []⟩
  have hle := length_le_flatMap (f := parameter) (fun p => by simp [parameter]) ps
  rw [List.length_append]
  exact Nat.lt_succ_of_le hle

/-- A packet is read as a whole if its length is an `i32`. -/
theorem startup_iff (body : Bytes) (ps : List (Bytes × Bytes)) :
    startup (putI32 (4 + (4 + body.length)) ++ (i32Bytes 196608 ++ body)) = some (ps, []) ↔
      4 + (4 + body.length) < 2 ^ 31 ∧ parameters body.length body = some (ps, []) := by
  have hall : (i32Bytes 196608 ++ body).length = 4 + body.length := by
    rw [List.length_append, length_i32Bytes]
  obtain ⟨n, hn⟩ : ∃ n, 4 + (4 + body.length) = n := ⟨_, rfl⟩
  rw [hn]
  by_cases hfits : n < 2 ^ 31
  · have hnat : (Int32.ofNat n).toNatClampNeg = n := Int32.toNatClampNeg_ofNat_of_lt hfits
    have hlow : ¬Int32.ofNat n < 8 :=
      not_ofNat_lt hfits (Int.ofNat_le.2 (show 8 ≤ n by omega))
    have hbytes : bytes (n - 4) (i32Bytes 196608 ++ body) = some (i32Bytes 196608 ++ body, []) := by
      have happend := bytes_append (show n - 4 = (i32Bytes 196608 ++ body).length by omega) []
      rwa [List.append_nil] at happend
    rw [and_iff_right hfits]
    simp only [startup, putI32, i32_i32Bytes, Option.bind_eq_bind, Option.bind_some, if_neg hlow,
      hnat, hbytes, ne_eq, not_true, if_false]
    cases hps : parameters body.length body with
    | none => simp
    | some read =>
      obtain ⟨params, left⟩ := read
      simp only [Option.bind_some]
      split_ifs with hleft
      · rw [hleft]
      · simp [hleft]
  · refine iff_of_false (fun h => ?_) fun h => hfits h.1
    -- some of the packet is left
    simp only [startup, putI32, i32_i32Bytes, Option.bind_eq_bind, Option.bind_some] at h
    split_ifs at h with hlow
    have hlt := Int32.toNatClampNeg_lt (Int32.ofNat n)
    simp only [bytes, if_pos (show (Int32.ofNat n).toNatClampNeg - 4 ≤
      (i32Bytes 196608 ++ body).length by omega), Option.bind_some, Option.bind_eq_some_iff,
      Prod.exists] at h
    obtain ⟨_, _, _, h⟩ := h
    split_ifs at h
    simp only [Option.bind_eq_some_iff, Prod.exists] at h
    obtain ⟨_, _, _, h⟩ := h
    split_ifs at h
    simp only [Option.some.injEq, Prod.mk.injEq, List.drop_eq_nil_iff] at h
    omega

end Grammar

/-! ### The encoder -/

/-- `encode_startup_with_params`. -/
def encodeStartupWithParams (user database : String) (extraParams : List (String × String))
    (buf : Bytes) : Bytes :=
  let body := i32Bytes 196608 ++ asBytes "user" ++ [0] ++ asBytes user ++ [0] ++
    asBytes "database" ++ [0] ++ asBytes database ++ [0] ++
    extraParams.flatMap (fun p => asBytes p.1 ++ [0] ++ asBytes p.2 ++ [0]) ++ [0]
  buf ++ putI32 (4 + body.length) ++ body

/-- `encode_password`. -/
def encodePassword (password buf : Bytes) : Bytes :=
  let len := 4 + password.length + 1
  buf ++ [byte 'p'] ++ putI32 len ++ password ++ [0]

namespace Auth

/-- What is written for a message. -/
def Outgoing.encode : Outgoing → Bytes
  | .startup user database params => encodeStartupWithParams user database params []
  | .password data => encodePassword data []
  | .frontend msg => encodeMessage msg []

namespace Config

variable (cfg : Config)

/-- The user, the database and the parameters of the caller. -/
def parameters : List (String × String) :=
  ("user", cfg.user) :: ("database", cfg.database) :: cfg.startupParams

/-- What the server should read. -/
def expected : List (Bytes × Bytes) := cfg.parameters.map fun p => (asBytes p.1, asBytes p.2)

/-- The bytes of the strings with their terminators, the version and the length. -/
def packetSize : ℕ :=
  9 + (cfg.parameters.map fun p => (asBytes p.1).length + (asBytes p.2).length + 2).sum

end Config

/-! ### What is sent -/

section

variable (lib : StartupLibs) (cfg : Config)

/-- All that `finish_startup` sends to a peer. -/
def sent (peer : Peer) : List Outgoing :=
  match Conn.sendRaw peer.writes .init (.startup cfg.user cfg.database cfg.startupParams) .loop with
  | .more phase conn =>
    sentFrom lib cfg peer.writes (fun _ conn _ => conn.sent) phase conn peer.reads
  | .done conn => conn.sent
  | .failed _ => []

/-- Nothing is injected: if anything is sent, then the server reads its beginning as the parameters
of the caller. -/
def NotInjected : Prop :=
  ∀ peer msg msgs, sent lib cfg peer = msg :: msgs →
    Grammar.startup msg.encode = some (cfg.expected, [])

variable {lib cfg} {writes : ℕ → Option PgWireError}

/-- What a message leads to keeps what has been sent. -/
def Next.Keeps (conn : Conn) : Next → Prop
  | .more _ conn' => conn.sent <+: conn'.sent
  | .done conn' => conn' = conn
  | .failed _ => True

theorem sendRaw_keeps {conn conn' : Conn} (h : conn'.sent = conn.sent) (msg : Outgoing)
    (phase : Phase) : (conn'.sendRaw writes msg phase).Keeps conn := by
  unfold Conn.sendRaw
  split
  · trivial
  · exact h ▸ List.prefix_append conn'.sent [msg]

/-- **Every message** keeps what has been sent. -/
theorem feed_keeps (conn : Conn) (phase : Phase) (m : BackendMsg) :
    (feed lib cfg writes conn phase m).Keeps conn := by
  unfold feed
  split
  case h_4 | h_10 =>
    split
    · trivial
    · exact sendRaw_keeps (by rfl) _ _
  all_goals
    first
      | exact sendRaw_keeps (by rfl) _ _
      | exact List.prefix_refl conn.sent
      | exact rfl
      | trivial

/-- Every run keeps what has been sent before it. -/
theorem prefix_sentFrom (phase : Phase) (conn : Conn) (rs : List ReadResult) :
    conn.sent <+: sentFrom lib cfg writes (fun _ conn _ => conn.sent) phase conn rs := by
  induction rs generalizing phase conn with
  | nil => exact List.prefix_refl _
  | cons r rs ih =>
    rcases r with e | m
    · exact List.prefix_refl _
    · have hkeeps := @feed_keeps lib cfg writes conn phase m
      rw [sentFrom]
      cases hfeed : feed lib cfg writes conn phase m with
      | more phase' conn' =>
        rw [hfeed] at hkeeps
        exact List.IsPrefix.trans hkeeps (ih phase' conn')
      | done conn' =>
        rw [hfeed] at hkeeps
        obtain rfl : conn' = conn := hkeeps
        exact List.prefix_refl _
      | failed e => exact List.prefix_refl _

/-- **Every run begins with the packet**, unless nothing can be written. -/
theorem head?_sent (peer : Peer) : (sent lib cfg peer).head? =
    if (peer.writes 0).isNone then some (.startup cfg.user cfg.database cfg.startupParams)
    else none := by
  have hlen : Conn.init.sent.length = 0 := rfl
  rw [sent, Conn.sendRaw, hlen]
  cases peer.writes 0 with
  | some e => rfl
  | none =>
    obtain ⟨msgs, hmsgs⟩ := @prefix_sentFrom lib cfg peer.writes .loop
      { Conn.init with sent := [.startup cfg.user cfg.database cfg.startupParams] } peer.reads
    exact congrArg List.head? hmsgs.symm

/-! ### When nothing is injected -/

/-- The packet is its length, the version and the parameters. -/
theorem encode_startup (cfg : Config) :
    (Outgoing.startup cfg.user cfg.database cfg.startupParams).encode =
      putI32 (4 + (4 + (cfg.expected.flatMap Grammar.parameter ++ [0]).length)) ++
        (i32Bytes 196608 ++ (cfg.expected.flatMap Grammar.parameter ++ [0])) := by
  have hextra : cfg.startupParams.flatMap (fun p => asBytes p.1 ++ [0] ++ asBytes p.2 ++ [0]) =
      (cfg.startupParams.map fun p => (asBytes p.1, asBytes p.2)).flatMap Grammar.parameter := by
    rw [List.flatMap_map]
    exact List.flatMap_congr fun p _ => by simp [Grammar.parameter]
  have hbody : i32Bytes 196608 ++ asBytes "user" ++ [0] ++ asBytes cfg.user ++ [0] ++
      asBytes "database" ++ [0] ++ asBytes cfg.database ++ [0] ++
        cfg.startupParams.flatMap (fun p => asBytes p.1 ++ [0] ++ asBytes p.2 ++ [0]) ++ [0] =
      i32Bytes 196608 ++ (cfg.expected.flatMap Grammar.parameter ++ [0]) := by
    rw [hextra]
    simp only [Config.expected, Config.parameters, List.map_cons, List.flatMap_cons,
      Grammar.parameter, List.append_assoc, List.cons_append, List.nil_append]
  simp only [Outgoing.encode, encodeStartupWithParams, hbody, List.nil_append]
  rw [@List.length_append _ (i32Bytes 196608), length_i32Bytes]

theorem length_parameters (cfg : Config) :
    4 + (4 + (cfg.expected.flatMap Grammar.parameter ++ [0]).length) = cfg.packetSize := by
  have hlen (p : String × String) : (Grammar.parameter (asBytes p.1, asBytes p.2)).length =
      (asBytes p.1).length + (asBytes p.2).length + 2 := by
    simp [Grammar.parameter]
    omega
  rw [Config.expected, List.flatMap_map, List.length_append, List.length_flatMap,
    List.map_congr_left fun p _ => hlen p, Config.packetSize, List.length_singleton]
  omega

theorem validParameter_iff (p : String × String) :
    Grammar.ValidParameter (asBytes p.1, asBytes p.2) ↔
      p.1 ≠ "" ∧ 0 ∉ asBytes p.1 ∧ 0 ∉ asBytes p.2 := by
  have hempty : asBytes p.1 = [] ↔ p.1 = "" := asBytes_injective.eq_iff (b := "")
  exact ⟨fun ⟨hne, hname, hvalue⟩ => ⟨mt hempty.mpr hne, hname, hvalue⟩,
    fun ⟨hne, hname, hvalue⟩ => ⟨mt hempty.mp hne, hname, hvalue⟩⟩

/-- The beginning of what is sent is the packet, so that this is what is read. -/
theorem notInjected_iff_startup (lib : StartupLibs) (cfg : Config) : NotInjected lib cfg ↔
    Grammar.startup (Outgoing.startup cfg.user cfg.database cfg.startupParams).encode =
      some (cfg.expected, []) := by
  constructor
  · intro h
    obtain ⟨msgs, hsent⟩ := List.head?_eq_some_iff.mp (@head?_sent lib cfg ⟨[], fun _ => none⟩)
    exact h _ _ _ hsent
  · intro h peer msg msgs hsent
    have hhead := @head?_sent lib cfg peer
    rw [hsent, List.head?_cons] at hhead
    split_ifs at hhead
    cases hhead
    exact h

/-- **When nothing can be injected.**  The server reads the packet as the user, the database and the
parameters of the caller, if and only if these have no zero byte, every parameter has a name, and
the length of the packet is an `i32`. -/
theorem notInjected_iff (lib : StartupLibs) (cfg : Config) : NotInjected lib cfg ↔
    0 ∉ asBytes cfg.user ∧ 0 ∉ asBytes cfg.database ∧
      (∀ p ∈ cfg.startupParams, p.1 ≠ "" ∧ 0 ∉ asBytes p.1 ∧ 0 ∉ asBytes p.2) ∧
        cfg.packetSize < 2 ^ 31 := by
  have huser : ("user" : String) ≠ "" ∧ 0 ∉ asBytes "user" := by decide
  have hdatabase : ("database" : String) ≠ "" ∧ 0 ∉ asBytes "database" := by decide
  rw [notInjected_iff_startup, encode_startup, Grammar.startup_iff, length_parameters,
    Grammar.parameters_iff, Config.expected, List.forall_mem_map]
  simp only [validParameter_iff, Config.parameters, List.forall_mem_cons]
  tauto

/-- A user name with zero bytes. -/
def injectedConfig : Config :=
  { aliceConfig with user := "alice\x00options\x00-csearch_path=eve" }

theorem injected_options : ¬NotInjected sha256StartupLibs injectedConfig := by
  rw [notInjected_iff_startup]
  decide

/-- The server reads it as a user and options. -/
example : (Grammar.startup
    (Outgoing.startup injectedConfig.user "app" []).encode).map (·.1) =
      some [(asBytes "user", asBytes "alice"), (asBytes "options", asBytes "-csearch_path=eve"),
        (asBytes "database", asBytes "app")] := by
  decide

end

end Auth

end Resolute
