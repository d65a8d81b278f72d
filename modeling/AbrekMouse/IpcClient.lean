import AbrekMouse.IpcFraming
import AbrekMouse.SaveFile
import AbrekMouse.StatusText
import AbrekMouse.TextSearch

/-! # The clients of the socket

The command line tool and the window send a request to the first socket that takes it whole,
and read the answer by looking for words in it.  Sends stop at any byte, the daemon may lose
patience with a request, and answers may be cut.  A configuration is pushed whole or not at
all, and what a client makes of the answer is what the daemon did (`push_truthful`); with an
answer that is lost, a client knows nothing.
-/
namespace AbrekMouse
open ProgLib ProgLib.JsonGrammar ProgLib.TextSearch

/-! ## Requests -/

/-- `set_config <n>` on a line, and the configuration. -/
def pushRequest (json : Bytes) : Bytes :=
  setConfig ++ decimal json.length ++ newline :: json

/-- What `daemon_ipc_set_active_app` keeps of a window class. -/
def normChar (c : UInt8) : Option UInt8 :=
  if 0x61 ≤ c ∧ c ≤ 0x7A then some c
  else if 0x41 ≤ c ∧ c ≤ 0x5A then some (c + 0x20)
  else if 0x30 ≤ c ∧ c ≤ 0x39 then some c
  else if c ∈ bytes "._-/@" then some c
  else none

/-- The word that stands for no application is for an empty class. -/
def appWord (wmClass : Bytes) : Bytes :=
  let norm := wmClass.filterMap normChar
  if norm = [] then bytes "none" else norm

/-- The request with which the window reports an application. -/
def appRequest (wmClass : Bytes) : Bytes := setActiveApp ++ appWord wmClass ++ [newline]

/-! ## Sending and receiving -/

/-- What one call of `send` comes to. -/
inductive SendResult where
  | sent (n : ℕ)
  | interrupted
  | failed

/-- What goes out, call by call, and whether that is all of it. -/
def sendAll : Bytes → List SendResult → List Bytes × Bool
  | [], _ => ([], true)
  | _, [] => ([], false)
  | request, .interrupted :: results => sendAll request results
  | _, .failed :: _ => ([], false)
  | _, .sent 0 :: _ => ([], false)
  | request, .sent (n + 1) :: results =>
      let rest := sendAll (request.drop (n + 1)) results
      (request.take (n + 1) :: rest.1, rest.2)

/-- What one call of `recv` comes to; after the last one the peer has closed. -/
inductive Received where
  | chunk (c : UInt8) (cs : Bytes)
  | interrupted
  | failed

/-- All that arrives. -/
def heard : List Received → Bytes
  | [] => []
  | .chunk c cs :: results => c :: cs ++ heard results
  | _ :: results => heard results

/-- `daemon_ipc_send` takes what it has when it stops, unless that is too much. -/
def readAnswer : Bytes → List Received → Bytes
  | resp, .chunk c cs :: results =>
      let resp := resp ++ c :: cs
      if 16 * 1024 * 1024 < resp.length then [] else readAnswer resp results
  | resp, _ => resp

/-- `daemon_ipc_send_raw` wants a line or a clean end. -/
def readLine : Bytes → List Received → Option Bytes
  | resp, [] => if 4 * 1024 * 1024 ≤ resp.length then none else some resp
  | resp, .chunk c cs :: results =>
      if 4 * 1024 * 1024 ≤ resp.length then none
      else
        let resp := resp ++ c :: cs
        if newline ∈ resp then some resp else readLine resp results
  | resp, .interrupted :: results =>
      if 4 * 1024 * 1024 ≤ resp.length then none else readLine resp results
  | _, .failed :: _ => none

/-- The programs that speak to the daemon: the command line and the window. -/
inductive Client where
  | cli
  | gui

/-- The answer, unless the next socket is to be tried. -/
def Client.read : Client → List Received → Option Bytes
  | cli, results => some (readAnswer [] results)
  | gui, results => readLine [] results

/-- The mark of success in an answer. -/
def okTrue : Bytes := bytes "\"ok\":true"

/-- The mark of failure in an answer. -/
def okFalse : Bytes := bytes "\"ok\":false"

/-- The mark of an error in an answer. -/
def errorKey : Bytes := bytes "\"error\""

/-- Is the word in the answer? -/
def Says (word resp : Bytes) : Prop := (find word resp).isSome = true

instance (word resp : Bytes) : Decidable (Says word resp) := inferInstanceAs (Decidable (_ = true))

/-- What a push has come to, as `daemon_apply_config` and `daemon_ipc_push_config` read it;
`none` is no usable answer. -/
def Client.verdict : Client → Bytes → Option Bool
  | cli, resp =>
      if Says okFalse resp then some false
      else if Says okTrue resp then some true
      else if Says errorKey resp then some false
      else none
  | gui, resp =>
      if Says okTrue resp then some true
      else if Says okFalse resp then some false
      else none

/-! ## The sockets -/

/-- How a connection to the daemon goes: the daemon reads so many of the sends before it
loses patience, and what arrives of its answer is the start of it. -/
structure Wire where
  sends : List SendResult
  patience : ℕ
  arrives : Bytes → List Received
  cut : ∀ answer, heard (arrives answer) <+: answer

/-- What is behind a candidate for the socket. -/
inductive Endpoint where
  | unreachable
  | daemon (wire : Wire)
  | other (sends : List SendResult) (answer : List Received)

variable (daemon : IpcDaemon)

/-- What `reply_timeout` sends. -/
def timeoutReply : Bytes := bytes "\x7b\"error\":\"request timeout\"\x7d\n"

/-- The daemon serves what it reads before it loses patience.  If that ends within the command
line and more was to come, it answers that the request has timed out; to a client that has
closed it answers nothing. -/
def serve (patience : ℕ) (chunks : List Bytes) (s : IpcState) : IpcState × Bytes :=
  let served := handleIpcClient daemon (chunks.take patience) s
  (served.1, served.2.getD (if patience < chunks.length then timeoutReply else []))

/-- One candidate: what happens to the daemon, and what comes back if all was sent. -/
def exchange (request : Bytes) (s : IpcState) : Endpoint → IpcState × Option (List Received)
  | .unreachable => (s, none)
  | .other sends answer => (s, if (sendAll request sends).2 then some answer else none)
  | .daemon wire =>
      let sent := sendAll request wire.sends
      let served := serve daemon wire.patience sent.1 s
      (served.1, if sent.2 then some (wire.arrives served.2) else none)

/-- `daemon_ipc_send` and `daemon_ipc_send_raw`: one candidate after the other. -/
def ipcSend (client : Client) (request : Bytes) : List Endpoint → IpcState → IpcState × Bytes
  | [], s => (s, [])
  | peer :: peers, s =>
      let r := exchange daemon request s peer
      match r.2.bind client.read with
      | some resp => (r.1, resp)
      | none => ipcSend client request peers r.1

/-- `daemon_apply_config`; without a usable answer it asks for a reload, by the socket or by
a signal. -/
def daemonApplyConfig (json : Bytes) (peers reloadPeers : List Endpoint) (signalSent : Bool)
    (s : IpcState) : IpcState × Bool :=
  let r := ipcSend daemon .cli (pushRequest json) peers s
  match Client.cli.verdict r.2 with
  | some verdict => (r.1, verdict)
  | none =>
      let reload := ipcSend daemon .cli (bytes "reload\n") reloadPeers r.1
      (reload.1, decide (Says okTrue reload.2) || signalSent)

/-- `daemon_ipc_set_active_app` -/
def daemonIpcSetActiveApp (wmClass : Bytes) (peers : List Endpoint) (s : IpcState) :
    IpcState × Bool :=
  let r := ipcSend daemon .gui (appRequest wmClass) peers s
  (r.1, decide (Says okTrue r.2))

/-! ## What is sent and what is heard -/

theorem sendAll_flatten (request : Bytes) (results : List SendResult) :
    (sendAll request results).1.flatten <+: request ∧
      ((sendAll request results).2 = true ↔ (sendAll request results).1.flatten = request) := by
  induction results generalizing request with
  | nil =>
      cases request with
      | nil => exact ⟨List.prefix_refl _, iff_of_true rfl rfl⟩
      | cons c request => exact ⟨List.nil_prefix, iff_of_false nofun nofun⟩
  | cons result results ih =>
      cases request with
      | nil => exact ⟨List.prefix_refl _, iff_of_true rfl rfl⟩
      | cons c request =>
          cases result with
          | interrupted => exact ih (c :: request)
          | failed => exact ⟨List.nil_prefix, iff_of_false nofun nofun⟩
          | sent n =>
              cases n with
              | zero => exact ⟨List.nil_prefix, iff_of_false nofun nofun⟩
              | succ n =>
                  obtain ⟨hstarts, hall⟩ := ih ((c :: request).drop (n + 1))
                  have hsplit := List.take_append_drop (n + 1) (c :: request)
                  constructor
                  · show (c :: request).take (n + 1) ++ _ <+: c :: request
                    conv => rhs; rw [← hsplit]
                    exact (List.prefix_append_right_inj _).mpr hstarts
                  · refine hall.trans ?_
                    show _ ↔ (c :: request).take (n + 1) ++ _ = c :: request
                    conv => rhs; rhs; rw [← hsplit]
                    exact (List.append_right_inj _).symm

theorem readAnswer_heard (resp : Bytes) (results : List Received) :
    readAnswer resp results = [] ∨
      ∃ more, more <+: heard results ∧ readAnswer resp results = resp ++ more := by
  induction results generalizing resp with
  | nil => exact .inr ⟨[], List.nil_prefix, (List.append_nil resp).symm⟩
  | cons result results ih =>
      cases result with
      | chunk c cs =>
          unfold readAnswer
          dsimp only
          split_ifs with hlarge
          · exact .inl rfl
          · rcases ih (resp ++ c :: cs) with hempty | ⟨more, hmore, heq⟩
            · exact .inl hempty
            · refine .inr ⟨c :: cs ++ more, ?_, by rw [heq, List.append_assoc]⟩
              exact (List.prefix_append_right_inj (c :: cs)).mpr hmore
      | interrupted => exact .inr ⟨[], List.nil_prefix, (List.append_nil resp).symm⟩
      | failed => exact .inr ⟨[], List.nil_prefix, (List.append_nil resp).symm⟩

theorem readLine_heard {resp got : Bytes} {results : List Received}
    (h : readLine resp results = some got) :
    ∃ more, more <+: heard results ∧ got = resp ++ more := by
  induction results generalizing resp with
  | nil =>
      unfold readLine at h
      split_ifs at h with hlarge
      cases h
      exact ⟨[], List.nil_prefix, (List.append_nil _).symm⟩
  | cons result results ih =>
      cases result with
      | chunk c cs =>
          unfold readLine at h
          dsimp only at h
          split_ifs at h with hlarge hline
          · cases h
            exact ⟨c :: cs, List.prefix_append _ _, rfl⟩
          · obtain ⟨more, hmore, rfl⟩ := ih h
            refine ⟨c :: cs ++ more, ?_, List.append_assoc ..⟩
            exact (List.prefix_append_right_inj (c :: cs)).mpr hmore
      | interrupted =>
          unfold readLine at h
          split_ifs at h with hlarge
          exact ih h
      | failed => cases h

/-- An answer is the start of what arrives. -/
theorem Client.read_heard {client : Client} {results : List Received} {resp : Bytes}
    (h : client.read results = some resp) : resp <+: heard results := by
  cases client with
  | cli =>
      cases h
      rcases readAnswer_heard [] results with hempty | ⟨more, hmore, heq⟩
      · rw [hempty]
        exact List.nil_prefix
      · rwa [heq]
  | gui =>
      obtain ⟨more, hmore, rfl⟩ := readLine_heard h
      exact hmore

/-! ## A push in the daemon -/

theorem decimalValue_decimal (n : ℕ) : decimalValue (decimal n) = n := by
  rw [decimal_eq, decimalValue, List.foldl_map]
  refine Eq.trans (List.foldl_ext _ _ _ fun m c hc => ?_)
    (Nat.ofDigitChars_ten_toDigits (n := n))
  obtain ⟨-, hhigh⟩ := toNat_of_isDigit (Nat.isDigit_of_mem_toDigits (by decide) (by decide) hc)
  rw [UInt8.toNat_ofNat', Nat.mod_eq_of_lt (by omega)]
  rfl

theorem newline_notMem_sizeLine (n : ℕ) : newline ∉ setConfig ++ decimal n := by
  rw [List.mem_append, not_or]
  refine ⟨by decide, fun hmem => ?_⟩
  exact absurd (isDigit_decimal newline hmem) (by decide)

/-- A size that fits a machine word has at most twenty digits. -/
theorem length_sizeLine {n : ℕ} (h : n < 2 ^ 64) : (setConfig ++ decimal n).length < 256 := by
  have hdigits : (decimal n).length ≤ 20 := by
    rw [decimal_eq, List.length_map, Nat.length_toDigits_le_iff (by decide) (by decide)]
    omega
  have hword : setConfig.length = 11 := by decide
  rw [List.length_append]
  omega

/-- The line of a stream is what is before its first newline. -/
theorem lineOf_line {line : Bytes} (hline : newline ∉ line) (hlength : line.length < 256)
    (rest : Bytes) : lineOf 256 [] (line ++ newline :: rest) = some (line, rest) := by
  rcases lineOf_cases 256 [] (line ++ newline :: rest) with
    ⟨more, rest', hstream, hmore, -, heq⟩ | ⟨hno, -, -⟩ | ⟨hno, -, -⟩
  · obtain ⟨rfl, rfl⟩ := split_newline hline hmore hstream
    exact heq
  · exact absurd (newline_mem_take rest hlength) hno
  · exact absurd (List.mem_append_right _ (List.mem_cons_self ..)) hno

theorem lineOf_short {stream : Bytes} (hno : newline ∉ stream) (hlength : stream.length < 256) :
    lineOf 256 [] stream = none := by
  rcases lineOf_cases 256 [] stream with ⟨more, rest, rfl, -, -, -⟩ | ⟨-, hlong, -⟩ | ⟨-, -, heq⟩
  · exact absurd (List.mem_append_right _ (List.mem_cons_self ..)) hno
  · omega
  · exact heq

/-- The start of a line with something behind it. -/
theorem prefix_line {line rest stream : Bytes} (h : stream <+: line ++ newline :: rest) :
    stream <+: line ∨ ∃ got, got <+: rest ∧ stream = line ++ newline :: got := by
  rcases List.prefix_or_prefix_of_prefix h (List.prefix_append line _) with hshort | ⟨got, rfl⟩
  · exact .inl hshort
  · have hgot := (List.prefix_append_right_inj line).mp h
    cases got with
    | nil => exact .inl (by rw [List.append_nil])
    | cons c got =>
        obtain ⟨rfl, hrest⟩ := List.cons_prefix_cons.mp hgot
        exact .inr ⟨got, hrest, rfl⟩

theorem respond_setConfig (s : IpcState) (n : ℕ) (body : ℕ → Bytes) :
    respond daemon s (setConfig ++ decimal n) body =
      if n = 0 ∨ maxConfigPushBytes < n then
        (s, bytes "\x7b\"ok\":false,\"error\":\"invalid config payload size\"\x7d\n")
      else if (body n).length ≠ n then
        (s, bytes "\x7b\"ok\":false,\"error\":\"incomplete config payload\"\x7d\n")
      else
        ({ s with pushes := s.pushes ++ [body n] },
          if daemon.pushConfig s (body n) then
            bytes "\x7b\"ok\":true,\"config\":" ++ daemon.configPathJson ++ bytes "\x7d\n"
          else bytes "\x7b\"ok\":false,\"error\":\"config rejected\"\x7d\n") := by
  have hset : setConfig <+: setConfig ++ decimal n := List.prefix_append _ _
  have hother : ∀ word : Bytes, ¬setConfig <+: word → ¬setConfig ++ decimal n = word := by
    rintro word hword rfl
    exact hword hset
  have happ : ¬setActiveApp.isPrefixOf (setConfig ++ decimal n) = true := by
    intro happ
    have hboth := List.prefix_of_prefix_length_le hset (List.isPrefixOf_iff_prefix.mp happ)
      (by decide)
    exact absurd hboth (by decide)
  have hlen := bodyLen_digits (decimal_ne_nil (n := n)) (List.all_eq_true.mpr isDigit_decimal)
  rw [decimalValue_decimal] at hlen
  unfold respond
  rw [if_neg (hother _ (by decide)), if_neg (hother _ (by decide)), if_neg (hother _ (by decide)),
    if_neg happ, if_neg (hother _ (by decide)), if_pos (List.isPrefixOf_iff_prefix.mpr hset), hlen]
  by_cases hrange : n = 0 ∨ maxConfigPushBytes < n
  · rw [if_pos hrange, if_pos hrange]
  · rw [if_neg hrange, if_neg hrange]

/-- The answer to a push: the daemon has refused it, or has been asked to apply it. -/
inductive PushAnswer (s : IpcState) (json : Bytes) : IpcState → Bytes → Prop
  | badSize :
      PushAnswer s json s (bytes "\x7b\"ok\":false,\"error\":\"invalid config payload size\"\x7d\n")
  | incomplete :
      PushAnswer s json s (bytes "\x7b\"ok\":false,\"error\":\"incomplete config payload\"\x7d\n")
  | rejected : daemon.pushConfig s json = false →
      PushAnswer s json { s with pushes := s.pushes ++ [json] }
        (bytes "\x7b\"ok\":false,\"error\":\"config rejected\"\x7d\n")
  | accepted : daemon.pushConfig s json = true →
      PushAnswer s json { s with pushes := s.pushes ++ [json] }
        (bytes "\x7b\"ok\":true,\"config\":" ++ daemon.configPathJson ++ bytes "\x7d\n")

/-- **Any part of a push is the whole of it or nothing.** -/
theorem push_served {json : Bytes} (hsize : json.length < 2 ^ 64) {chunks : List Bytes}
    (hpart : chunks.flatten <+: pushRequest json) (s : IpcState) :
    (handleIpcClient daemon chunks s = (s, none) ∧ chunks.flatten ≠ pushRequest json) ∨
      ∃ s' text, PushAnswer daemon s json s' text ∧
        handleIpcClient daemon chunks s = (s', some text) ∧
        (chunks.flatten ≠ pushRequest json → s' = s) := by
  rw [handleIpcClient_eq]
  have hno := newline_notMem_sizeLine json.length
  have hlength := length_sizeLine hsize
  rcases prefix_line hpart with hshort | ⟨got, hgot, hstream⟩
  · left
    have hline : newline ∉ chunks.flatten := fun hmem => hno (hshort.subset hmem)
    rw [lineOf_short hline (Nat.lt_of_le_of_lt hshort.length_le hlength)]
    refine ⟨rfl, fun heq => hline ?_⟩
    rw [heq]
    exact List.mem_append_right _ (List.mem_cons_self ..)
  · right
    rw [hstream, lineOf_line hno hlength]
    dsimp only
    rw [respond_setConfig]
    split_ifs with hrange hcut haccepted
    · exact ⟨s, _, .badSize, rfl, fun _ => rfl⟩
    · exact ⟨s, _, .incomplete, rfl, fun _ => rfl⟩
    all_goals
      have hall : json.length ≤ got.length := by
        rw [List.length_take] at hcut
        omega
      obtain rfl : got = json := hgot.eq_of_length_le hall
      rw [List.take_length] at haccepted ⊢
    · exact ⟨_, _, .accepted haccepted, rfl, fun hne => absurd rfl hne⟩
    · refine ⟨_, _, .rejected ?_, rfl, fun hne => absurd rfl hne⟩
      exact (Bool.not_eq_true _).mp haccepted

/-! ## The words in an answer -/

theorem says_iff {word resp : Bytes} : Says word resp ↔ word <:+: resp := isSome_find_iff

/-- Of a cut answer no more is read than of the whole. -/
theorem Says.of_starts {word resp answer : Bytes} (h : Says word resp) (hcut : resp <+: answer) :
    Says word answer := says_iff.mpr ((says_iff.mp h).trans hcut.isInfix)

/-- The quotes of a text for a string have a backslash before them. -/
theorem guarded_asciiText (c : UInt8) : Guarded 0x22 0x5C (asciiText c) := by
  unfold asciiText
  split_ifs with hquote
  · exact ⟨by decide, by decide⟩
  · exact .of_notMem (by decide)
  · exact .of_notMem (by decide)
  · exact .of_notMem (by decide)
  · exact .of_notMem (by decide)
  · exact .of_notMem (by decide)
  · exact .of_notMem fun hmem => hquote (List.mem_singleton.mp hmem).symm

theorem guarded_unicodeEscape : ∀ c : UInt8, 0x22 ∉ unicodeEscape c :=
  forall_byte (by decide +kernel)

theorem Escaped.guarded {s t : Bytes} (h : Escaped s t) : Guarded 0x22 0x5C t := by
  induction h with
  | nil => exact .nil
  | @ascii c s t hc _ ih => exact (guarded_asciiText c).append ih
  | @passed c u s t hseq _ ih =>
      have hhigh : (0x22 : UInt8) ∉ c :: u := fun hmem => (hseq.plain _ hmem).1.ne_quote rfl
      exact (Guarded.of_notMem hhigh).append ih
  | @broken c s t hc hpass _ ih => exact (Guarded.of_notMem (guarded_unicodeEscape c)).append ih

theorem guarded_jsonChars (s : Bytes) : Guarded 0x22 0x5C (jsonChars 0 s) :=
  (escaped_jsonChars s).guarded

/-- A character takes six bytes at most. -/
theorem Escaped.length_le {s t : Bytes} (h : Escaped s t) : t.length ≤ 6 * s.length := by
  induction h with
  | nil => exact Nat.zero_le _
  | @ascii c s t _ _ ih =>
      have hpiece : (asciiText c).length ≤ 2 := by
        unfold asciiText
        split_ifs <;> simp [bytes]
      rw [List.length_append, List.length_cons]
      omega
  | passed _ _ ih =>
      simp only [List.length_cons, List.length_append]
      omega
  | @broken c s t _ _ _ ih =>
      have hpiece : (unicodeEscape c).length = 6 := rfl
      rw [List.length_append, List.length_cons]
      omega

/-- The answer of the daemon to a configuration that it takes. -/
def acceptedAnswer (path : Bytes) : Bytes :=
  bytes "\x7b\"ok\":true,\"config\":" ++ jsonStr path ++ bytes "\x7d\n"

/-- A path is no longer than the system's paths are, and so the answer is short. -/
theorem length_acceptedAnswer {path : Bytes} (h : path.length ≤ 4096) :
    (acceptedAnswer path).length ≤ 64 * 1024 := by
  have hchars := (escaped_jsonChars path).length_le
  have hstart : (bytes "\x7b\"ok\":true,\"config\":").length = 20 := by decide
  have hend : (bytes "\x7d\n").length = 2 := by decide
  simp only [acceptedAnswer, jsonStr, quoted, List.length_append, List.length_cons,
    List.length_nil, hstart, hend]
  omega

theorem okFalse_eq : okFalse = 0x22 :: (bytes "ok" ++ 0x22 :: bytes ":false") := by decide

/-- The path is in the answer as a string, and no word of a refusal is. -/
theorem not_says_okFalse (path : Bytes) : ¬Says okFalse (acceptedAnswer path) := by
  have hfind : find okFalse (acceptedAnswer path) = find okFalse (bytes "\x7d\n") := by
    rw [acceptedAnswer, List.append_assoc, find_append_of_noOverlap (by decide +kernel), jsonStr,
      quoted, okFalse_eq]
    refine (guarded_jsonChars path).find_append (by decide) (by decide) (by decide) ?_ (by decide)
    exact fun _ => by decide
  rw [Says, hfind]
  decide

theorem Client.verdict_nil (client : Client) : client.verdict [] = none := by
  cases client <;> decide

theorem Client.verdict_of_not_okTrue {client : Client} {resp : Bytes} (h : ¬Says okTrue resp) :
    client.verdict resp ≠ some true := by
  cases client with
  | cli =>
      rw [Client.verdict]
      split_ifs <;> simp
  | gui =>
      rw [Client.verdict]
      split_ifs <;> simp

/-- An acceptance is not taken for a refusal, wherever it is cut. -/
theorem Client.verdict_accepted {client : Client} {path resp : Bytes}
    (hcut : resp <+: acceptedAnswer path) : client.verdict resp ≠ some false := by
  have hfalse : ¬Says okFalse resp := fun h => not_says_okFalse path (h.of_starts hcut)
  cases client with
  | cli =>
      have herror : ¬Says okTrue resp → ¬Says errorKey resp := by
        intro htrue herror
        have hword : bytes "\x7b\"ok\":true" <+: acceptedAnswer path := by
          rw [acceptedAnswer, List.append_assoc]
          exact List.IsPrefix.trans (by decide) (List.prefix_append _ _)
        rcases List.prefix_or_prefix_of_prefix hcut hword with hshort | hlong
        · exact absurd (herror.of_starts hshort) (by decide)
        · have htold : Says okTrue (bytes "\x7b\"ok\":true") := by decide
          exact htrue (htold.of_starts hlong)
      rw [Client.verdict]
      split_ifs with htrue herrorKey
      · simp
      · exact absurd herrorKey (herror htrue)
      · simp
  | gui =>
      rw [Client.verdict]
      split_ifs <;> simp

theorem Client.verdict_acceptedAnswer (client : Client) (path : Bytes) :
    client.verdict (acceptedAnswer path) = some true := by
  have hfalse := not_says_okFalse path
  have htrue : Says okTrue (acceptedAnswer path) := by
    have hword : bytes "\x7b\"ok\":true" <+: acceptedAnswer path := by
      rw [acceptedAnswer, List.append_assoc]
      exact List.IsPrefix.trans (by decide) (List.prefix_append _ _)
    exact Says.of_starts (by decide) hword
  cases client with
  | cli => rw [Client.verdict, if_neg hfalse, if_pos htrue]
  | gui => rw [Client.verdict, if_pos htrue]

/-! ## The client and the daemon -/

/-- Nobody but the daemon listens, and the daemon at one of the candidates. -/
inductive OneDaemon (good : Wire → Prop) : List Endpoint → Prop
  | nil : OneDaemon good []
  | unreachable {peers} : OneDaemon good peers → OneDaemon good (.unreachable :: peers)
  | daemon {wire peers} : good wire → (∀ peer ∈ peers, peer = .unreachable) →
      OneDaemon good (.daemon wire :: peers)

/-- The answer arrives as it was sent, for the client. -/
def Wire.Whole (client : Client) (wire : Wire) : Prop :=
  ∀ answer, answer.length ≤ 64 * 1024 → client.read (wire.arrives answer) = some answer

theorem ipcSend_unreachable {client : Client} {request : Bytes} {peers : List Endpoint}
    (h : ∀ peer ∈ peers, peer = .unreachable) (s : IpcState) :
    ipcSend daemon client request peers s = (s, []) := by
  induction peers with
  | nil => rfl
  | cons peer peers ih =>
      rw [List.forall_mem_cons] at h
      rw [h.1]
      exact ih h.2

/-- What has become of a request: the daemon has served it, or the start of it, and what the
client holds is the start of the answer. -/
inductive SendOutcome (client : Client) (good : Wire → Prop) (request : Bytes) (s : IpcState) :
    IpcState × Bytes → Prop
  | unseen : SendOutcome client good request s (s, [])
  | served {wire chunks late resp} : good wire → chunks.flatten <+: request →
      (late = [] ∨ late = timeoutReply) →
      resp <+: (handleIpcClient daemon chunks s).2.getD late →
      (wire.Whole client → chunks.flatten = request →
        ((handleIpcClient daemon chunks s).2.getD late).length ≤ 64 * 1024 →
        resp = (handleIpcClient daemon chunks s).2.getD late) →
      SendOutcome client good request s ((handleIpcClient daemon chunks s).1, resp)

/-- A request whose command line has not come is answered, if at all, with a timeout. -/
theorem eq_late (patience : ℕ) (chunks : List Bytes) :
    (if patience < chunks.length then timeoutReply else []) = [] ∨
      (if patience < chunks.length then timeoutReply else []) = timeoutReply := by
  by_cases hmore : patience < chunks.length
  · exact .inr (if_pos hmore)
  · exact .inl (if_neg hmore)

/-- A timeout, or the start of it, is no acceptance. -/
theorem not_says_late {late resp : Bytes} (hlate : late = [] ∨ late = timeoutReply)
    (hcut : resp <+: late) : ¬Says okTrue resp := by
  intro htold
  have hwhole := htold.of_starts hcut
  rcases hlate with rfl | rfl
  · exact absurd hwhole (by decide)
  · exact absurd hwhole (by decide)

theorem ipcSend_outcome {client : Client} {request : Bytes} {good : Wire → Prop}
    {peers : List Endpoint} (hone : OneDaemon good peers) (s : IpcState) :
    SendOutcome daemon client good request s (ipcSend daemon client request peers s) := by
  induction hone with
  | nil => exact .unseen
  | unreachable _ ih => exact ih
  | @daemon wire peers hgood hrest =>
      obtain ⟨hpart, hall⟩ := sendAll_flatten request wire.sends
      have htaken := (List.take_prefix wire.patience (sendAll request wire.sends).1).flatten
      have hchunks := htaken.trans hpart
      have hlate := eq_late wire.patience (sendAll request wire.sends).1
      unfold ipcSend exchange serve
      dsimp only
      cases hsent : (sendAll request wire.sends).2 with
      | false =>
          simp only [Bool.false_eq_true, if_false, Option.bind_none,
            ipcSend_unreachable daemon hrest]
          refine .served hgood hchunks hlate List.nil_prefix fun _ hwhole _ => ?_
          rw [hwhole] at htaken
          rw [hall.mpr (hpart.eq_of_length_le htaken.length_le)] at hsent
          cases hsent
      | true =>
          simp only [if_true, Option.bind_some]
          cases hread : client.read (wire.arrives ((handleIpcClient daemon
              ((sendAll request wire.sends).1.take wire.patience) s).2.getD
                (if wire.patience < (sendAll request wire.sends).1.length then timeoutReply
                  else []))) with
          | none =>
              simp only [ipcSend_unreachable daemon hrest]
              refine .served hgood hchunks hlate List.nil_prefix fun hwhole _ hshort => ?_
              rw [hwhole _ hshort] at hread
              cases hread
          | some resp =>
              refine .served hgood hchunks hlate
                ((Client.read_heard hread).trans (wire.cut _)) ?_
              intro hwhole _ hshort
              rw [hwhole _ hshort] at hread
              exact (Option.some.inj hread).symm

/-- The daemon has accepted a text. -/
def IpcState.pushed (s : IpcState) (json : Bytes) : IpcState :=
  { s with pushes := s.pushes ++ [json] }

/-- What a client knows of a push from its verdict. -/
structure Told (client : Client) (s : IpcState) (json : Bytes) (whole : Prop)
    (r : IpcState × Bytes) : Prop where
  once : r.1 = s ∨ r.1 = s.pushed json
  applied : client.verdict r.2 = some true → r.1 = s.pushed json ∧ daemon.pushConfig s json = true
  refused : client.verdict r.2 = some false → r.1 = s ∨ daemon.pushConfig s json = false
  silent : whole → client.verdict r.2 = none → r.1 = s

/-- No refusal has the word of an acceptance in it, and each has a word of its own. -/
theorem PushAnswer.verdict {daemon : IpcDaemon} {client : Client} {path json text resp : Bytes}
    {s s' : IpcState} (h : PushAnswer daemon s json s' text)
    (hpath : daemon.configPathJson = jsonStr path) (hmax : path.length ≤ 4096)
    (hcut : resp <+: text) :
    (s' = s ∨ s' = s.pushed json) ∧
      (client.verdict resp = some true → s' = s.pushed json ∧ daemon.pushConfig s json = true) ∧
      (client.verdict resp = some false → s' = s ∨ daemon.pushConfig s json = false) ∧
      client.verdict text ≠ none ∧ text.length ≤ 64 * 1024 := by
  have hrefusal : ¬Says okTrue text → client.verdict resp ≠ some true := fun hno =>
    Client.verdict_of_not_okTrue fun htold => hno (htold.of_starts hcut)
  cases h with
  | badSize =>
      exact ⟨.inl rfl, fun h => absurd h (hrefusal (by decide)), fun _ => .inl rfl,
        by cases client <;> decide, by decide⟩
  | incomplete =>
      exact ⟨.inl rfl, fun h => absurd h (hrefusal (by decide)), fun _ => .inl rfl,
        by cases client <;> decide, by decide⟩
  | rejected hrejected =>
      exact ⟨.inr rfl, fun h => absurd h (hrefusal (by decide)), fun _ => .inr hrejected,
        by cases client <;> decide, by decide⟩
  | accepted haccepted =>
      rw [hpath] at hcut ⊢
      refine ⟨.inr rfl, fun _ => ⟨rfl, haccepted⟩, fun h => ?_, ?_, length_acceptedAnswer hmax⟩
      · exact absurd h (Client.verdict_accepted hcut)
      · exact (client.verdict_acceptedAnswer path).trans_ne (Option.some_ne_none _)

theorem SendOutcome.told {client : Client} {good : Wire → Prop} {path json : Bytes} {s : IpcState}
    {r : IpcState × Bytes} (h : SendOutcome daemon client good (pushRequest json) s r)
    (hpath : daemon.configPathJson = jsonStr path) (hmax : path.length ≤ 4096)
    (hsize : json.length < 2 ^ 64) :
    Told daemon client s json (∀ wire, good wire → wire.Whole client) r := by
  cases h with
  | unseen =>
      refine ⟨.inl rfl, fun h => ?_, fun h => ?_, fun _ _ => rfl⟩
      · rw [client.verdict_nil] at h
        cases h
      · rw [client.verdict_nil] at h
        cases h
  | @served wire chunks late resp hgood hpart hlate hheard hwhole =>
      rcases push_served daemon hsize hpart s with ⟨heq, hne⟩ | ⟨s', text, hanswer, heq, hcutOff⟩
      · rw [heq] at hheard ⊢
        have hno := not_says_late hlate hheard
        exact ⟨.inl rfl, fun h => absurd h (Client.verdict_of_not_okTrue hno), fun _ => .inl rfl,
          fun _ _ => rfl⟩
      · rw [heq] at hheard hwhole ⊢
        obtain ⟨honce, happlied, hrefused, hsome, hshort⟩ :=
          hanswer.verdict hpath hmax hheard
        refine ⟨honce, happlied, hrefused, fun hgoodWhole hnone => ?_⟩
        by_cases hall : chunks.flatten = pushRequest json
        · rw [hwhole (hgoodWhole wire hgood) hall hshort] at hnone
          exact absurd hnone hsome
        · exact hcutOff hall

/-- **A push is applied whole or not at all, and the client is not told what is not so.** -/
theorem push_truthful (client : Client) (path json : Bytes) {good : Wire → Prop}
    {peers : List Endpoint} (hpath : daemon.configPathJson = jsonStr path)
    (hmax : path.length ≤ 4096) (hsize : json.length < 2 ^ 64) (hone : OneDaemon good peers)
    (s : IpcState) :
    Told daemon client s json (∀ wire, good wire → wire.Whole client)
      (ipcSend daemon client (pushRequest json) peers s) :=
  (ipcSend_outcome daemon hone s).told daemon hpath hmax hsize

/-! ## Requests of one line -/

/-- A request of one line is served when it is there, or not. -/
theorem line_served {line : Bytes} (hline : newline ∉ line) (hlength : line.length < 256)
    {chunks : List Bytes} (hpart : chunks.flatten <+: line ++ [newline]) (s : IpcState) :
    handleIpcClient daemon chunks s = (s, none) ∨
      handleIpcClient daemon chunks s =
        let r := respond daemon s line fun _ => []
        (r.1, some r.2) := by
  rw [handleIpcClient_eq]
  rcases prefix_line hpart with hshort | ⟨got, hgot, hstream⟩
  · left
    have hno : newline ∉ chunks.flatten := fun hmem => hline (hshort.subset hmem)
    rw [lineOf_short hno (Nat.lt_of_le_of_lt hshort.length_le hlength)]
  · right
    rw [hstream, lineOf_line hline hlength, List.prefix_nil.mp hgot]
    simp only [List.take_nil]

/-- Asking for a reload pushes nothing. -/
theorem reload_pushes {client : Client} {good : Wire → Prop} {s : IpcState}
    {r : IpcState × Bytes} (h : SendOutcome daemon client good (bytes "reload\n") s r) :
    r.1.pushes = s.pushes := by
  cases h with
  | unseen => rfl
  | served _ hpart =>
      have hline : bytes "reload\n" = bytes "reload" ++ [newline] := by decide
      rw [hline] at hpart
      rcases line_served daemon (by decide) (by decide) hpart s with heq | heq
      · rw [heq]
      · rw [heq]
        rfl

/-- **What the command line tool reports is what the daemon decided.** -/
theorem apply_config_verdict (path json : Bytes) {good : Wire → Prop}
    {peers reloadPeers : List Endpoint} (hpath : daemon.configPathJson = jsonStr path)
    (hmax : path.length ≤ 4096) (hsize : json.length < 2 ^ 64)
    (hone : OneDaemon (Wire.Whole .cli) peers)
    (hreload : OneDaemon good reloadPeers) (signalSent : Bool) (s : IpcState) :
    let r := daemonApplyConfig daemon json peers reloadPeers signalSent s
    r.1.pushes = s.pushes ∨
      (r.1.pushes = s.pushes ++ [json] ∧ r.2 = daemon.pushConfig s json) := by
  have htold : Told daemon .cli s json (∀ wire, Wire.Whole .cli wire → wire.Whole .cli)
      (ipcSend daemon .cli (pushRequest json) peers s) :=
    (ipcSend_outcome daemon hone s).told daemon hpath hmax hsize
  unfold daemonApplyConfig
  dsimp only
  cases hverdict : Client.cli.verdict (ipcSend daemon .cli (pushRequest json) peers s).2 with
  | none =>
      left
      have hsame := htold.silent (fun _ hwire => hwire) hverdict
      dsimp only
      rw [reload_pushes daemon (ipcSend_outcome daemon hreload _), hsame]
  | some verdict =>
      dsimp only
      rcases htold.once with hsame | hpushed
      · exact .inl (congrArg IpcState.pushes hsame)
      · right
        refine ⟨congrArg IpcState.pushes hpushed, ?_⟩
        cases verdict with
        | true => exact (htold.applied hverdict).2.symm
        | false =>
            rcases htold.refused hverdict with hsame | hrejected
            · have hlist := congrArg IpcState.pushes (hsame.symm.trans hpushed)
              exact absurd (List.self_eq_append_right.mp hlist) (List.cons_ne_nil _ _)
            · exact hrejected.symm

/-! ## The active application -/

/-- What the daemon makes of a window class: a name of its own is for none. -/
def reportedApp (wmClass : Bytes) : Bytes :=
  let norm := wmClass.filterMap normChar
  if norm = bytes "none" then [] else norm.take 128

/-- The daemon has taken a report. -/
def IpcState.reported (s : IpcState) (wmClass : Bytes) : IpcState :=
  { s with pendingApp := reportedApp wmClass, activeAppDirty := true }

theorem newline_notMem_normChar : ∀ c : UInt8, newline ∉ (normChar c).toList :=
  forall_byte (by decide +kernel)

theorem newline_notMem_appLine (wmClass : Bytes) :
    newline ∉ setActiveApp ++ appWord wmClass := by
  have hnorm : newline ∉ wmClass.filterMap normChar := by
    intro hmem
    obtain ⟨c, -, hc⟩ := List.mem_filterMap.mp hmem
    exact newline_notMem_normChar c (Option.mem_toList.mpr hc)
  rw [List.mem_append, not_or]
  refine ⟨by decide, ?_⟩
  unfold appWord
  dsimp only
  split_ifs
  · decide
  · exact hnorm

theorem respond_setActiveApp (s : IpcState) (app : Bytes) (body : ℕ → Bytes) :
    respond daemon s (setActiveApp ++ app) body =
      ({ s with pendingApp := (if app = bytes "none" then [] else app).take 128,
                activeAppDirty := true },
        bytes "\x7b\"ok\":true,\"message\":\"active app updated\"\x7d\n") := by
  have hset : setActiveApp <+: setActiveApp ++ app := List.prefix_append _ _
  have hother : ∀ word : Bytes, ¬setActiveApp <+: word → ¬setActiveApp ++ app = word := by
    rintro word hword rfl
    exact hword hset
  unfold respond
  rw [if_neg (hother _ (by decide)), if_neg (hother _ (by decide)), if_neg (hother _ (by decide)),
    if_pos (List.isPrefixOf_iff_prefix.mpr hset), List.drop_left]

/-- The word, or what of it the line has room for. -/
theorem take_appWord (wmClass : Bytes) :
    (if appWord wmClass = bytes "none" then [] else appWord wmClass).take 128 =
      reportedApp wmClass := by
  unfold appWord reportedApp
  dsimp only
  by_cases hempty : wmClass.filterMap normChar = []
  · rw [if_pos hempty, if_pos rfl, hempty]
    rfl
  · rw [if_neg hempty]
    split_ifs
    · rfl
    · rfl

/-- A word that is cut off with its line is not the word for no application. -/
theorem take_appWord_of_long {wmClass : Bytes} (h : 241 ≤ (appWord wmClass).length) :
    reportedApp wmClass =
      (if (appWord wmClass).take 241 = bytes "none" then []
        else (appWord wmClass).take 241).take 128 := by
  have hlength : ((appWord wmClass).take 241).length = 241 := by
    rw [List.length_take]
    omega
  have hcut : (appWord wmClass).take 241 ≠ bytes "none" := by
    intro heq
    rw [heq] at hlength
    exact absurd hlength (by decide)
  have hword : appWord wmClass ≠ bytes "none" := by
    intro heq
    rw [heq] at h
    exact absurd h (by decide)
  rw [← take_appWord, if_neg hword, if_neg hcut, List.take_take]
  rfl

theorem app_served (wmClass : Bytes) {chunks : List Bytes}
    (hpart : chunks.flatten <+: appRequest wmClass) (s : IpcState) :
    handleIpcClient daemon chunks s = (s, none) ∨
      handleIpcClient daemon chunks s = (s.reported wmClass,
        some (bytes "\x7b\"ok\":true,\"message\":\"active app updated\"\x7d\n")) := by
  have hno := newline_notMem_appLine wmClass
  rw [handleIpcClient_eq]
  rcases lineOf_cases 256 [] chunks.flatten with
    ⟨more, rest, hstream, hmore, -, heq⟩ | ⟨hcut, hlong, heq⟩ | ⟨-, -, heq⟩
  · right
    rw [hstream, appRequest] at hpart
    obtain ⟨rest', hwhole⟩ := hpart
    rw [List.append_assoc, List.cons_append] at hwhole
    obtain ⟨rfl, -⟩ := split_newline hmore hno hwhole
    rw [heq, List.nil_append]
    dsimp only
    rw [respond_setActiveApp, take_appWord]
    rfl
  · right
    have htake : (appRequest wmClass).take 256 = chunks.flatten.take 256 := by
      obtain ⟨rest, hwhole⟩ := hpart
      rw [← hwhole, List.take_append_of_le_length hlong]
    have hfull : 256 ≤ (setActiveApp ++ appWord wmClass).length := by
      by_contra hshort
      rw [← htake] at hcut
      exact hcut (newline_mem_take [] (Nat.lt_of_not_le hshort))
    have hword : setActiveApp.length = 15 := by decide
    have hlength : 241 ≤ (appWord wmClass).length := by
      rw [List.length_append] at hfull
      omega
    have hline : chunks.flatten.take 256 = setActiveApp ++ (appWord wmClass).take 241 := by
      rw [← htake, appRequest, List.take_append_of_le_length hfull, List.take_append, hword,
        List.take_of_length_le (by omega)]
    rw [heq, List.nil_append, hline]
    dsimp only
    rw [respond_setActiveApp, ← take_appWord_of_long hlength]
    rfl
  · left
    rw [heq]

theorem not_says_nil : ¬Says okTrue [] := by decide

/-- **A report that is acknowledged has been taken**, however long the class is. -/
theorem app_acknowledged (wmClass : Bytes) {good : Wire → Prop} {peers : List Endpoint}
    (hone : OneDaemon good peers) (s : IpcState) :
    let r := daemonIpcSetActiveApp daemon wmClass peers s
    (r.1 = s ∨ r.1 = s.reported wmClass) ∧ (r.2 = true → r.1 = s.reported wmClass) := by
  have houtcome : SendOutcome daemon .gui good (appRequest wmClass) s _ :=
    ipcSend_outcome daemon hone s
  unfold daemonIpcSetActiveApp
  dsimp only
  generalize ipcSend daemon .gui (appRequest wmClass) peers s = r at houtcome
  cases houtcome with
  | unseen => exact ⟨.inl rfl, fun h => absurd (of_decide_eq_true h) not_says_nil⟩
  | served _ hpart hlate hheard =>
      rcases app_served daemon wmClass hpart s with heq | heq
      · rw [heq] at hheard ⊢
        have hno := not_says_late hlate hheard
        exact ⟨.inl rfl, fun h => absurd (of_decide_eq_true h) hno⟩
      · rw [heq]
        exact ⟨.inr rfl, fun _ => rfl⟩

/-! ## A push in two parts -/

/-- The bytes arrive in one piece, if there are any. -/
def deliver : Bytes → List Received
  | [] => []
  | c :: cs => [.chunk c cs]

theorem heard_deliver (answer : Bytes) : heard (deliver answer) = answer := by
  cases answer with
  | nil => rfl
  | cons c cs => exact List.append_nil (c :: cs)

/-- An interrupted send, and an answer in one piece. -/
def splitWire : Wire where
  sends := [.sent 5, .interrupted, .sent 100]
  patience := 9
  arrives := deliver
  cut answer := by rw [heard_deliver]

theorem splitWire_whole (client : Client) : splitWire.Whole client := by
  intro answer hshort
  cases answer with
  | nil => cases client <;> rfl
  | cons c cs =>
      have hsmall : ¬16 * 1024 * 1024 < (c :: cs).length := by omega
      have hroom : ¬4 * 1024 * 1024 ≤ (c :: cs).length := by omega
      cases client with
      | cli =>
          show some (readAnswer [] [.chunk c cs]) = _
          rw [readAnswer, List.nil_append, if_neg hsmall, readAnswer]
          exact nofun
      | gui =>
          show readLine [] [.chunk c cs] = _
          rw [readLine, if_neg (by decide), List.nil_append]
          dsimp only
          split_ifs
          · rfl
          · rw [readLine, if_neg hroom]

theorem oneDaemon_split : OneDaemon (· = splitWire) [.unreachable, .daemon splitWire] :=
  .unreachable (.daemon rfl (List.forall_mem_nil _))

theorem push_truthful_split :
    Told accepting .gui {} (bytes "\x7b\x7d") (∀ wire, wire = splitWire → wire.Whole .gui)
      (ipcSend accepting .gui (pushRequest (bytes "\x7b\x7d"))
        [.unreachable, .daemon splitWire] {}) :=
  push_truthful accepting .gui (bytes "/etc/rawaccel.json") (bytes "\x7b\x7d")
    (by decide +kernel) (by decide) (by decide) oneDaemon_split {}

theorem apply_config_verdict_split :
    let r := daemonApplyConfig accepting (bytes "\x7b\x7d") [.unreachable, .daemon splitWire]
      [.daemon splitWire] true {}
    r.1.pushes = [] ∨ (r.1.pushes = [bytes "\x7b\x7d"] ∧ r.2 = true) :=
  apply_config_verdict accepting (bytes "/etc/rawaccel.json") (bytes "\x7b\x7d") (by decide +kernel)
    (by decide) (by decide) (.unreachable (.daemon (splitWire_whole .cli) (List.forall_mem_nil _)))
    (.daemon (splitWire_whole .cli) (List.forall_mem_nil _)) true {}

/-- A daemon that refuses each configuration. -/
def refusing : IpcDaemon := { accepting with pushConfig := fun _ _ => false }

/-- The time for the answer is over after a few bytes. -/
def cutWire : Wire :=
  { splitWire with
    arrives := fun answer => deliver (answer.take 8)
    cut := fun answer => by
      rw [heard_deliver]
      exact List.take_prefix 8 answer }

/-- **A refusal that is cut off is reported as a success**: the reload that follows is of the
configuration that the daemon had. -/
theorem refusal_cut_off :
    let r := daemonApplyConfig refusing (bytes "\x7b\x7d") [.daemon cutWire] [.daemon splitWire]
      false {}
    r.1.pushes = [bytes "\x7b\x7d"] ∧ r.2 = true := by
  decide +kernel

theorem app_acknowledged_split :
    let r := daemonIpcSetActiveApp accepting (bytes "Firefox") [.daemon splitWire] {}
    (r.1 = {} ∨ r.1 = IpcState.reported {} (bytes "Firefox")) ∧
      (r.2 = true → r.1 = IpcState.reported {} (bytes "Firefox")) :=
  app_acknowledged accepting (bytes "Firefox")
    (.daemon (splitWire_whole .cli) (List.forall_mem_nil _)) {}

end AbrekMouse
