import AbrekMouse.Migrate

/-! # IPC framing

A client sends one command line, and `set_config` a body after it.  What the daemon does
depends on the bytes and not on how they arrive (`handleIpcClient_eq`).  The line is read up
to 256 bytes, with or without a newline, and its size by `strtoull`, which takes more than
digits; so there are requests that are served and should not be (`framed_iff_plain`).
-/
namespace AbrekMouse
open ProgLib

/-! ## The size of a body -/

/-- `strtoull` in base ten: the value, unless it is out of range, and what comes after the
digits; `none` if there are none.  A negative number wraps around. -/
def strtoull (s : Bytes) : Option (Option ℕ × Bytes) :=
  let unsigned := s.dropWhile isSpace
  let negative := unsigned.head? = some 0x2D
  let number := if negative ∨ unsigned.head? = some 0x2B then unsigned.tail else unsigned
  let digits := number.takeWhile isDigit
  let n := decimalValue digits
  if digits = [] then none
  else some (if 2 ^ 64 ≤ n then none else some (if negative then (2 ^ 64 - n) % 2 ^ 64 else n),
    number.dropWhile isDigit)

/-- `MAX_CONFIG_PUSH_BYTES` -/
def maxConfigPushBytes : ℕ := 1024 * 1024

/-- The request for a new configuration, whose text follows. -/
def setConfig : Bytes := bytes "set_config "

/-- The request for another application, whose name follows. -/
def setActiveApp : Bytes := bytes "set_active_app "

/-- The size in a `set_config` line, which is a C string. -/
def bodyLen (line : Bytes) : Option ℕ :=
  match strtoull ((line.drop setConfig.length).takeWhile (· ≠ 0)) with
  | some (some n, []) => if n = 0 ∨ maxConfigPushBytes < n then none else some n
  | _ => none

/-! ## Reading -/

/-- `recv`, of what has arrived, or is going to, in chunks; an empty chunk is an interrupted
call, and there is nothing more once the client has closed. -/
def recv (want : ℕ) : List Bytes → Option (Bytes × List Bytes)
  | [] => none
  | [] :: chunks => recv want chunks
  | (c :: cs) :: chunks => some ((c :: cs).take want, (c :: cs).drop want :: chunks)

/-- The byte that ends a request. -/
def newline : UInt8 := 0x0A

/-- The command line, at most so many bytes more. -/
def readCommandLine : ℕ → Bytes → List Bytes → Option (Bytes × List Bytes)
  | 0, line, chunks => some (line, chunks)
  | room + 1, line, chunks =>
      match recv 1 chunks with
      | none => none
      | some (ch, chunks) =>
          if ch = [newline] then some (line, chunks)
          else readCommandLine room (line ++ ch) chunks

/-- The body, in at most so many rounds. -/
def readBody (bodyLen : ℕ) : ℕ → Bytes → List Bytes → Bytes
  | 0, body, _ => body
  | rounds + 1, body, chunks =>
      if body.length < bodyLen then
        match recv (min 8192 (bodyLen - body.length)) chunks with
        | none => body
        | some (tmp, chunks) => readBody bodyLen rounds (body ++ tmp) chunks
      else body

/-! ## The commands -/

/-- What the commands change. -/
structure IpcState where
  reloadFlag : Bool := false
  pendingApp : Bytes := []
  activeAppDirty : Bool := false
  latencyDumpFlag : Bool := false
  /-- What `push_config` has been called with. -/
  pushes : List Bytes := []
deriving DecidableEq

/-- The rest of the daemon. -/
structure IpcDaemon where
  statusJson : IpcState → Bytes
  /-- Does `push_config` accept the configuration? -/
  pushConfig : IpcState → Bytes → Bool
  /-- `json_str(config_path_)` -/
  configPathJson : Bytes

variable (daemon : IpcDaemon)

/-- The state after a command line, and the response; the body is read if it is needed. -/
def respond (s : IpcState) (line : Bytes) (body : ℕ → Bytes) : IpcState × Bytes :=
  if line = bytes "status" then (s, daemon.statusJson s ++ [newline])
  else if line = bytes "ping" then (s, bytes "pong\n")
  else if line = bytes "reload" then
    ({ s with reloadFlag := true },
      bytes "\x7b\"ok\":true,\"message\":\"config reload scheduled\"\x7d\n")
  else if setActiveApp.isPrefixOf line then
    let app := line.drop setActiveApp.length
    -- the word for no application, and so a program of that name is none
    let app := if app = bytes "none" then [] else app
    ({ s with pendingApp := app.take 128, activeAppDirty := true },
      bytes "\x7b\"ok\":true,\"message\":\"active app updated\"\x7d\n")
  else if line = bytes "latency" then
    ({ s with latencyDumpFlag := true },
      bytes "\x7b\"ok\":true,\"message\":\"latency dump scheduled\"\x7d\n")
  else if setConfig.isPrefixOf line then
    match bodyLen line with
    | none => (s, bytes "\x7b\"ok\":false,\"error\":\"invalid config payload size\"\x7d\n")
    | some n =>
        let body := body n
        if body.length ≠ n then
          (s, bytes "\x7b\"ok\":false,\"error\":\"incomplete config payload\"\x7d\n")
        else
          ({ s with pushes := s.pushes ++ [body] },
            if daemon.pushConfig s body then
              bytes "\x7b\"ok\":true,\"config\":" ++ daemon.configPathJson ++ bytes "\x7d\n"
            else bytes "\x7b\"ok\":false,\"error\":\"config rejected\"\x7d\n")
  else (s, bytes "\x7b\"error\":\"unknown command\"\x7d\n")

/-- A client that closes before the end of its line gets no response. -/
def handleIpcClient (chunks : List Bytes) (s : IpcState) : IpcState × Option Bytes :=
  match readCommandLine 256 [] chunks with
  | none => (s, none)
  | some (line, chunks) =>
      let r := respond daemon s line fun n => readBody n n [] chunks
      (r.1, some r.2)

/-! ## Chunks do not matter -/

theorem recv_flatten (want : ℕ) (chunks : List Bytes) :
    (recv want chunks = none ∧ chunks.flatten = []) ∨
      ∃ c cs rest, (c :: cs ++ rest) = chunks.flatten ∧
        ∃ chunks', recv want chunks = some ((c :: cs).take want, chunks') ∧
          chunks'.flatten = (c :: cs).drop want ++ rest := by
  induction chunks with
  | nil => exact .inl ⟨rfl, rfl⟩
  | cons chunk chunks ih =>
      cases chunk with
      | nil => exact ih
      | cons c cs => exact .inr ⟨c, cs, chunks.flatten, rfl, _, rfl, rfl⟩

/-- The command line of a stream. -/
def lineOf : ℕ → Bytes → Bytes → Option (Bytes × Bytes)
  | 0, line, stream => some (line, stream)
  | _ + 1, _, [] => none
  | room + 1, line, c :: stream =>
      if c = newline then some (line, stream) else lineOf room (line ++ [c]) stream

theorem readCommandLine_flatten (room : ℕ) (line : Bytes) (chunks : List Bytes) :
    (readCommandLine room line chunks).map (fun r => (r.1, r.2.flatten)) =
      lineOf room line chunks.flatten := by
  induction room generalizing line chunks with
  | zero => rfl
  | succ room ih =>
      unfold readCommandLine
      rcases recv_flatten 1 chunks with
        ⟨hnone, hempty⟩ | ⟨c, cs, rest, hstream, chunks', hsome, hrest⟩
      · rw [hnone, hempty]
        rfl
      · rw [hsome, ← hstream]
        have hrest : chunks'.flatten = cs ++ rest := hrest
        dsimp only [List.take_succ_cons, List.take_zero, List.cons_append, lineOf]
        by_cases hnewline : c = newline
        · rw [if_pos (by rw [hnewline]), if_pos hnewline, Option.map_some, hrest]
        · have hne : ¬[c] = [newline] := fun h => hnewline (List.cons.inj h).1
          rw [if_neg hne, if_neg hnewline, ih, hrest]

/-- Every round reads a byte, so there are enough rounds. -/
theorem readBody_flatten (n : ℕ) {rounds : ℕ} {body : Bytes} (chunks : List Bytes)
    (hle : body.length ≤ n) (hrounds : n ≤ body.length + rounds) :
    readBody n rounds body chunks = (body ++ chunks.flatten).take n := by
  induction rounds generalizing body chunks with
  | zero =>
      have hlength : n = body.length := by omega
      rw [hlength, List.take_left]
      rfl
  | succ rounds ih =>
      unfold readBody
      by_cases hless : body.length < n
      · rw [if_pos hless]
        rcases recv_flatten (min 8192 (n - body.length)) chunks with
          ⟨hnone, hempty⟩ | ⟨c, cs, rest, hstream, chunks', hsome, hrest⟩
        · rw [hnone, hempty, List.append_nil, List.take_of_length_le hle]
        · rw [hsome]
          dsimp only
          have hpositive : 0 < min 8192 (n - body.length) := by omega
          have htaken := List.length_take (l := c :: cs) (i := min 8192 (n - body.length))
          rw [List.length_cons] at htaken
          rw [ih]
          · rw [hrest, ← hstream, List.append_assoc, ← List.append_assoc (List.take _ _),
              List.take_append_drop]
          · rw [List.length_append]
            omega
          · rw [List.length_append]
            omega
      · have hlength : n = body.length := by omega
        rw [if_neg hless, hlength, List.take_left]

/-- **The bytes decide**, and not the chunks that they arrive in. -/
theorem handleIpcClient_eq (chunks : List Bytes) (s : IpcState) :
    handleIpcClient daemon chunks s =
      match lineOf 256 [] chunks.flatten with
      | none => (s, none)
      | some (line, rest) =>
          let r := respond daemon s line fun n => rest.take n
          (r.1, some r.2) := by
  rw [← readCommandLine_flatten]
  unfold handleIpcClient
  cases readCommandLine 256 [] chunks with
  | none => rfl
  | some r =>
      obtain ⟨line, rest⟩ := r
      have hbody : (fun n => readBody n n [] rest) = fun n => rest.flatten.take n := by
        funext n
        exact readBody_flatten n rest (Nat.zero_le n) (Nat.le_add_left n 0)
      dsimp only [Option.map_some]
      rw [hbody]

/-! ## The documented requests -/

/-- `set_config <n>` on a line, and then the body. -/
def Documented (stream body : Bytes) : Prop :=
  ∃ digits rest, stream = setConfig ++ digits ++ newline :: (body ++ rest) ∧ digits ≠ [] ∧
    digits.all isDigit = true ∧ decimalValue digits = body.length ∧
    1 ≤ body.length ∧ body.length ≤ maxConfigPushBytes

/-- `push_config` is called for the documented requests, and nothing changes without a
newline. -/
def Framed (stream : Bytes) : Prop :=
  ∀ s : IpcState,
    ((handleIpcClient daemon [stream] s).1.pushes = s.pushes ∨
      ∃ body, (handleIpcClient daemon [stream] s).1.pushes = s.pushes ++ [body]) ∧
    (∀ body, (handleIpcClient daemon [stream] s).1.pushes = s.pushes ++ [body] ↔
      Documented stream body) ∧
    (newline ∉ stream.take 256 → (handleIpcClient daemon [stream] s).1 = s)

/-- A line with a size has it in digits; a line that is cut off is no command that changes
anything, nor is it the start of a documented request. -/
def Plain (stream : Bytes) : Prop :=
  (∀ line rest, stream = line ++ newline :: rest → newline ∉ line → line.length < 256 →
    setConfig.isPrefixOf line = true → ∀ n, bodyLen line = some n → n ≤ rest.length →
    (line.drop setConfig.length).all isDigit = true) ∧
  (newline ∉ stream.take 256 → 256 ≤ stream.length →
    setActiveApp.isPrefixOf stream = false ∧
    (setConfig.isPrefixOf stream = true → ∀ n, bodyLen (stream.take 256) = some n →
      stream.length < 256 + n) ∧
    ∀ body, ¬Documented stream body)

/-- The command line is short and has a newline, or is cut off, or has no end. -/
theorem lineOf_cases (room : ℕ) (line stream : Bytes) :
    (∃ more rest, stream = more ++ newline :: rest ∧ newline ∉ more ∧ more.length < room ∧
      lineOf room line stream = some (line ++ more, rest)) ∨
    (newline ∉ stream.take room ∧ room ≤ stream.length ∧
      lineOf room line stream = some (line ++ stream.take room, stream.drop room)) ∨
    (newline ∉ stream ∧ stream.length < room ∧ lineOf room line stream = none) := by
  induction room generalizing line stream with
  | zero =>
      refine .inr (.inl ⟨nofun, Nat.zero_le _, ?_⟩)
      rw [List.take_zero, List.append_nil]
      rfl
  | succ room ih =>
      cases stream with
      | nil => exact .inr (.inr ⟨nofun, Nat.succ_pos _, rfl⟩)
      | cons c stream =>
          by_cases hnewline : c = newline
          · refine .inl ⟨[], stream, by rw [hnewline]; rfl, nofun, Nat.succ_pos _, ?_⟩
            rw [lineOf, if_pos hnewline, List.append_nil]
          · have hne : newline ≠ c := fun h => hnewline h.symm
            have hline : ∀ more, line ++ [c] ++ more = line ++ c :: more := fun more => by
              rw [List.append_assoc, List.singleton_append]
            rw [lineOf, if_neg hnewline, List.take_succ_cons, List.drop_succ_cons]
            rcases ih (line ++ [c]) stream with
              ⟨more, rest, rfl, hmore, hless, heq⟩ | ⟨hno, hlength, heq⟩ | ⟨hno, hlength, heq⟩
            · refine .inl ⟨c :: more, rest, rfl, ?_, Nat.succ_lt_succ hless, ?_⟩
              · exact List.not_mem_cons_of_ne_of_not_mem hne hmore
              · rw [heq, hline]
            · refine .inr (.inl ⟨?_, Nat.succ_le_succ hlength, ?_⟩)
              · exact List.not_mem_cons_of_ne_of_not_mem hne hno
              · rw [heq, hline]
            · refine .inr (.inr ⟨?_, Nat.succ_lt_succ hlength, heq⟩)
              exact List.not_mem_cons_of_ne_of_not_mem hne hno

theorem isDigit_bounds {c : UInt8} (h : isDigit c = true) : 0x30 ≤ c ∧ c ≤ 0x39 := by
  simpa [isDigit] using h

/-- Digits are a number as they are. -/
theorem strtoull_digits {digits : Bytes} (hne : digits ≠ []) (hdigits : digits.all isDigit = true) :
    strtoull digits = some (if 2 ^ 64 ≤ decimalValue digits then none
      else some (decimalValue digits), []) := by
  obtain ⟨c, cs, rfl⟩ := List.exists_cons_of_ne_nil hne
  have hc := isDigit_bounds (List.all_eq_true.mp hdigits c (List.mem_cons_self ..))
  have hspace : isSpace c = false := by
    by_contra hspace
    simp only [Bool.not_eq_false, isSpace, Bool.or_eq_true, Bool.and_eq_true,
      decide_eq_true_eq] at hspace
    rcases hspace with rfl | ⟨-, hle⟩
    · exact absurd hc.1 (by decide)
    · exact absurd (UInt8.le_trans hc.1 hle) (by decide)
  have hminus : c ≠ 0x2D := by
    rintro rfl
    exact absurd hc.1 (by decide)
  have hplus : c ≠ 0x2B := by
    rintro rfl
    exact absurd hc.1 (by decide)
  have htake : (c :: cs).takeWhile isDigit = c :: cs :=
    List.takeWhile_eq_self_iff.mpr fun d hd => List.all_eq_true.mp hdigits d hd
  have hdrop : (c :: cs).dropWhile isDigit = [] :=
    List.dropWhile_eq_nil_iff.mpr fun d hd => List.all_eq_true.mp hdigits d hd
  unfold strtoull
  simp only [List.dropWhile_cons, hspace, Bool.false_eq_true, if_false, List.head?_cons,
    Option.some.injEq, hminus, hplus, or_self, htake, hne, hdrop]

theorem bodyLen_digits {digits : Bytes} (hne : digits ≠ []) (hdigits : digits.all isDigit = true) :
    bodyLen (setConfig ++ digits) =
      if decimalValue digits = 0 ∨ maxConfigPushBytes < decimalValue digits then none
      else some (decimalValue digits) := by
  have hstring : digits.takeWhile (· ≠ 0) = digits := by
    refine List.takeWhile_eq_self_iff.mpr fun d hd => ?_
    have hbounds := isDigit_bounds (List.all_eq_true.mp hdigits d hd)
    rw [decide_eq_true_eq]
    rintro rfl
    exact absurd hbounds.1 (by decide)
  unfold bodyLen
  rw [List.drop_left, hstring, strtoull_digits hne hdigits]
  by_cases hrange : 2 ^ 64 ≤ decimalValue digits
  · have hlarge : decimalValue digits = 0 ∨ maxConfigPushBytes < decimalValue digits :=
      .inr (Nat.lt_of_lt_of_le (by decide) hrange)
    rw [if_pos hrange, if_pos hlarge]
  · rw [if_neg hrange]

/-- A size that is accepted is one of digits, at least. -/
theorem drop_ne_nil_of_bodyLen {line : Bytes} {n : ℕ} (h : bodyLen line = some n) :
    line.drop setConfig.length ≠ [] := by
  intro hnil
  unfold bodyLen at h
  rw [hnil] at h
  cases h

/-- What a command line pushes. -/
def pushed (line : Bytes) (body : ℕ → Bytes) : Option Bytes :=
  if setConfig.isPrefixOf line then
    match bodyLen line with
    | none => none
    | some n => if (body n).length = n then some (body n) else none
  else none

theorem respond_pushes (s : IpcState) (line : Bytes) (body : ℕ → Bytes) :
    (respond daemon s line body).1.pushes = s.pushes ++ (pushed line body).toList := by
  have hno : setConfig.isPrefixOf line = false → pushed line body = none := by
    intro h
    rw [pushed, if_neg (by rw [h]; exact Bool.false_ne_true)]
  unfold respond
  split_ifs with hstatus hping hreload hactive hlatency hset
  · rw [hno (by rw [hstatus]; decide)]
    exact (List.append_nil _).symm
  · rw [hno (by rw [hping]; decide)]
    exact (List.append_nil _).symm
  · rw [hno (by rw [hreload]; decide)]
    exact (List.append_nil _).symm
  · have hother : setConfig.isPrefixOf line = false := by
      by_contra hset
      have hset := List.isPrefixOf_iff_prefix.mp ((Bool.not_eq_false _).mp hset)
      have hboth := List.prefix_of_prefix_length_le hset (List.isPrefixOf_iff_prefix.mp hactive)
        (by decide)
      exact absurd hboth (by decide)
    rw [hno hother]
    exact (List.append_nil _).symm
  · rw [hno (by rw [hlatency]; decide)]
    exact (List.append_nil _).symm
  · rw [pushed, if_pos hset]
    cases bodyLen line with
    | none => exact (List.append_nil _).symm
    | some n =>
        dsimp only
        by_cases hlength : (body n).length = n
        · rw [if_neg (not_not.mpr hlength), if_pos hlength]
          rfl
        · rw [if_pos hlength, if_neg hlength]
          exact (List.append_nil _).symm
  · rw [hno ((Bool.not_eq_true _).mp hset)]
    exact (List.append_nil _).symm

/-- The first newline divides a stream. -/
theorem split_newline {line line' rest rest' : Bytes} (hline : newline ∉ line)
    (hline' : newline ∉ line') (h : line ++ newline :: rest = line' ++ newline :: rest') :
    line = line' ∧ rest = rest' := by
  induction line generalizing line' with
  | nil =>
      cases line' with
      | nil => exact ⟨rfl, (List.cons.inj h).2⟩
      | cons c line' =>
          obtain ⟨rfl, -⟩ := List.cons.inj h
          exact absurd (List.mem_cons_self ..) hline'
  | cons c line ih =>
      cases line' with
      | nil =>
          obtain ⟨rfl, -⟩ := List.cons.inj h
          exact absurd (List.mem_cons_self ..) hline
      | cons c' line' =>
          obtain ⟨rfl, htail⟩ := List.cons.inj h
          obtain ⟨rfl, rfl⟩ := ih (fun hmem => hline (List.mem_cons_of_mem _ hmem))
            (fun hmem => hline' (List.mem_cons_of_mem _ hmem)) htail
          exact ⟨rfl, rfl⟩

/-- A newline ends the command line of a documented request. -/
theorem documented_iff {line rest body : Bytes} (hline : newline ∉ line) :
    Documented (line ++ newline :: rest) body ↔
      ∃ digits, line = setConfig ++ digits ∧ body <+: rest ∧ digits ≠ [] ∧
        digits.all isDigit = true ∧ decimalValue digits = body.length ∧
        1 ≤ body.length ∧ body.length ≤ maxConfigPushBytes := by
  constructor
  · rintro ⟨digits, rest', hstream, hne, hdigits, hvalue, hpositive, hmax⟩
    have hno : newline ∉ setConfig ++ digits := by
      rw [List.mem_append, not_or]
      refine ⟨by decide, fun hmem => ?_⟩
      exact absurd (List.all_eq_true.mp hdigits _ hmem) (by decide)
    obtain ⟨rfl, rfl⟩ := split_newline hline hno hstream
    exact ⟨digits, rfl, List.prefix_append _ _, hne, hdigits, hvalue, hpositive, hmax⟩
  · rintro ⟨digits, rfl, ⟨rest', rfl⟩, hne, hdigits, hvalue, hpositive, hmax⟩
    exact ⟨digits, rest', rfl, hne, hdigits, hvalue, hpositive, hmax⟩

theorem not_documented {stream body : Bytes} (hno : newline ∉ stream) :
    ¬Documented stream body := by
  rintro ⟨digits, rest, rfl, -⟩
  exact hno (List.mem_append_right _ (List.mem_cons_self ..))

/-- On a line of its own, `push_config` is called for documented requests, and for no others
if the size is in digits. -/
theorem pushed_iff {line rest body : Bytes} (hline : newline ∉ line)
    (hplain : setConfig.isPrefixOf line = true → ∀ n, bodyLen line = some n → n ≤ rest.length →
      (line.drop setConfig.length).all isDigit = true) :
    pushed line (fun n => rest.take n) = some body ↔
      Documented (line ++ newline :: rest) body := by
  rw [documented_iff hline]
  constructor
  · intro hpushed
    unfold pushed at hpushed
    split_ifs at hpushed with hset
    cases hlen : bodyLen line with
    | none =>
        rw [hlen] at hpushed
        cases hpushed
    | some n =>
        rw [hlen] at hpushed
        dsimp only at hpushed
        split_ifs at hpushed with hlength
        cases hpushed
        have hle : n ≤ rest.length := by
          rw [List.length_take] at hlength
          omega
        have hdigits := hplain hset n hlen hle
        have hne := drop_ne_nil_of_bodyLen hlen
        obtain ⟨digits, rfl⟩ := List.isPrefixOf_iff_prefix.mp hset
        rw [List.drop_left] at hdigits hne
        rw [bodyLen_digits hne hdigits] at hlen
        split_ifs at hlen with hrange
        cases hlen
        refine ⟨digits, rfl, List.take_prefix _ _, hne, hdigits, hlength.symm, ?_, ?_⟩
        · omega
        · omega
  · rintro ⟨digits, rfl, ⟨rest', rfl⟩, hne, hdigits, hvalue, hpositive, hmax⟩
    have hset : setConfig.isPrefixOf (setConfig ++ digits) = true :=
      List.isPrefixOf_iff_prefix.mpr (List.prefix_append _ _)
    have hlen := bodyLen_digits hne hdigits
    rw [hvalue, if_neg (by omega)] at hlen
    rw [pushed, if_pos hset, hlen]
    dsimp only
    rw [List.take_left, if_pos rfl]

/-- A line that is cut off and pushes nothing changes nothing, unless it names an app. -/
theorem respond_cut_off (s : IpcState) {line : Bytes} {body : ℕ → Bytes}
    (hlength : line.length = 256) (happ : setActiveApp.isPrefixOf line = false)
    (hpushed : pushed line body = none) : (respond daemon s line body).1 = s := by
  have hshort : ∀ word : Bytes, word.length < 256 → ¬line = word := by
    rintro word hless rfl
    omega
  have happ : ¬setActiveApp.isPrefixOf line = true := (Bool.not_eq_true _).mpr happ
  unfold respond
  rw [if_neg (hshort _ (by decide)), if_neg (hshort _ (by decide)),
    if_neg (hshort _ (by decide)), if_neg happ, if_neg (hshort _ (by decide))]
  split_ifs with hset
  · rw [pushed, if_pos hset] at hpushed
    cases hlen : bodyLen line with
    | none => rfl
    | some n =>
        rw [hlen] at hpushed
        dsimp only at hpushed ⊢
        split_ifs at hpushed with hshort
        rw [if_pos hshort]
  · rfl

theorem pushes_eq_iff {s : IpcState} {pushed : Option Bytes} {body : Bytes} :
    s.pushes ++ pushed.toList = s.pushes ++ [body] ↔ pushed = some body := by
  rw [List.append_right_inj]
  cases pushed with
  | none => simp
  | some body' => simp

/-- The app of a line that is cut off is reported. -/
theorem respond_app_cut_off (s : IpcState) {line : Bytes} {body : ℕ → Bytes}
    (hlength : line.length = 256) (happ : setActiveApp.isPrefixOf line = true) :
    (respond daemon s line body).1.activeAppDirty = true := by
  have hshort : ∀ word : Bytes, word.length < 256 → ¬line = word := by
    rintro word hless rfl
    omega
  unfold respond
  rw [if_neg (hshort _ (by decide)), if_neg (hshort _ (by decide)),
    if_neg (hshort _ (by decide)), if_pos happ]

/-- The first 256 bytes begin as the stream does. -/
theorem isPrefixOf_take {word stream : Bytes} (h : word.length ≤ 256) :
    word.isPrefixOf (stream.take 256) = word.isPrefixOf stream := by
  rw [Bool.eq_iff_iff, List.isPrefixOf_iff_prefix, List.isPrefixOf_iff_prefix,
    List.prefix_take_iff]
  exact and_iff_left h

theorem newline_mem_take {line : Bytes} (rest : Bytes) (h : line.length < 256) :
    newline ∈ (line ++ newline :: rest).take 256 := by
  obtain ⟨k, hk⟩ : ∃ k, 256 - line.length = k + 1 := ⟨255 - line.length, by omega⟩
  rw [List.take_append, hk, List.take_succ_cons]
  exact List.mem_append_right _ (List.mem_cons_self ..)

/-- **When requests are framed as documented.** -/
theorem framed_iff_plain (stream : Bytes) : Framed daemon stream ↔ Plain stream := by
  have heq := fun s => handleIpcClient_eq daemon [stream] s
  rw [List.flatten_cons, List.flatten_nil, List.append_nil] at heq
  rcases lineOf_cases 256 [] stream with
    ⟨line, rest, hstream, hno, hless, hline⟩ | ⟨hno, hlength, hline⟩ | ⟨hno, hlength, hline⟩
  -- a line of its own
  · rw [hline, List.nil_append] at heq
    subst hstream
    have hnewline := newline_mem_take rest hless
    have hpushes : ∀ s, (handleIpcClient daemon [line ++ newline :: rest] s).1.pushes =
        s.pushes ++ (pushed line fun n => rest.take n).toList := by
      intro s
      rw [heq]
      exact respond_pushes daemon s line _
    constructor
    · intro hframed
      refine ⟨fun line' rest' hsame hno' hless' hset n hlen hle => ?_,
        fun hcut => absurd hnewline hcut⟩
      obtain ⟨rfl, rfl⟩ := split_newline hno hno' hsame
      obtain ⟨-, hiff, -⟩ := hframed {}
      have hpushed : pushed line (fun n => rest.take n) = some (rest.take n) := by
        rw [pushed, if_pos hset, hlen]
        exact if_pos (List.length_take_of_le hle)
      have hdocumented := (hiff _).mp ((hpushes _).trans (pushes_eq_iff.mpr hpushed))
      obtain ⟨digits, rfl, -, -, hdigits, -⟩ := (documented_iff hno).mp hdocumented
      rw [List.drop_left]
      exact hdigits
    · intro hplain s
      have hiff : ∀ body, pushed line (fun n => rest.take n) = some body ↔
          Documented (line ++ newline :: rest) body := fun body =>
        pushed_iff hno fun hset n hlen hle =>
          hplain.1 line rest rfl hno hless hset n hlen hle
      rw [hpushes]
      refine ⟨?_, fun body => pushes_eq_iff.trans (hiff body), fun hcut => absurd hnewline hcut⟩
      cases pushed line fun n => rest.take n with
      | none => exact .inl (List.append_nil _)
      | some body => exact .inr ⟨body, rfl⟩
  -- 256 bytes without a newline
  · rw [hline, List.nil_append] at heq
    have htake : (stream.take 256).length = 256 := List.length_take_of_le hlength
    have hfirst : ∀ line rest, stream = line ++ newline :: rest → ¬line.length < 256 := by
      rintro line rest rfl hless
      exact hno (newline_mem_take rest hless)
    constructor
    · intro hframed
      have hstate : ∀ s, (respond daemon s (stream.take 256) fun n =>
          (stream.drop 256).take n).1 = s := by
        intro s
        have hsame := (hframed s).2.2 hno
        rw [heq] at hsame
        exact hsame
      have hpushes := respond_pushes daemon {} (stream.take 256) fun n => (stream.drop 256).take n
      rw [hstate] at hpushes
      refine ⟨fun line rest hsame _ hless => absurd hless (hfirst line rest hsame),
        fun _ _ => ⟨?_, fun hset n hlen => ?_, fun body hdocumented => ?_⟩⟩
      · by_contra happ
        rw [Bool.not_eq_false, ← isPrefixOf_take (by decide)] at happ
        have hdirty : (respond daemon {} (stream.take 256) fun n =>
            (stream.drop 256).take n).1.activeAppDirty = true :=
          respond_app_cut_off daemon {} htake happ
        rw [hstate] at hdirty
        cases hdirty
      · by_contra hlong
        have hpushed : pushed (stream.take 256) (fun n => (stream.drop 256).take n) =
            some ((stream.drop 256).take n) := by
          rw [pushed, if_pos (by rw [isPrefixOf_take (by decide)]; exact hset), hlen]
          refine if_pos (List.length_take_of_le ?_)
          rw [List.length_drop]
          omega
        rw [hpushed] at hpushes
        cases hpushes
      · have hcalled := ((hframed {}).2.1 body).mpr hdocumented
        rw [heq] at hcalled
        dsimp only at hcalled
        rw [hstate] at hcalled
        cases hcalled
    · intro hplain s
      obtain ⟨happ, hset, hdocumented⟩ := hplain.2 hno hlength
      have hpushed : pushed (stream.take 256) (fun n => (stream.drop 256).take n) = none := by
        unfold pushed
        split_ifs with hprefix
        · rw [isPrefixOf_take (by decide)] at hprefix
          cases hlen : bodyLen (stream.take 256) with
          | none => rfl
          | some n =>
              have hless := hset hprefix n hlen
              refine if_neg fun hall => ?_
              rw [List.length_take, List.length_drop] at hall
              omega
        · rfl
      have hstate := respond_cut_off daemon s htake
        (by rw [isPrefixOf_take (by decide)]; exact happ) hpushed
      rw [heq]
      dsimp only
      rw [hstate]
      refine ⟨.inl rfl, fun body => iff_of_false (fun h => ?_) (hdocumented body), fun _ => rfl⟩
      exact List.cons_ne_nil _ _ (List.self_eq_append_right.mp h)
  -- no line at all
  · rw [hline] at heq
    have hnone : ∀ line rest, stream ≠ line ++ newline :: rest := by
      rintro line rest rfl
      exact hno (List.mem_append_right _ (List.mem_cons_self ..))
    refine iff_of_true (fun s => ?_) ⟨fun line rest hsame => absurd hsame (hnone line rest),
      fun _ hlong => absurd hlong (Nat.not_le.mpr hlength)⟩
    rw [heq]
    refine ⟨.inl rfl, fun body => iff_of_false (fun h => ?_) (not_documented hno), fun _ => rfl⟩
    exact List.cons_ne_nil _ _ (List.self_eq_append_right.mp h)

/-- **Framing**: the bytes alone decide, and a stream is served as documented exactly if it
is plain. -/
theorem requests_framed :
    (∀ (chunks chunks' : List Bytes) (s : IpcState), chunks.flatten = chunks'.flatten →
      handleIpcClient daemon chunks s = handleIpcClient daemon chunks' s) ∧
    ∀ stream, Framed daemon stream ↔ Plain stream := by
  refine ⟨fun chunks chunks' s hsame => ?_, framed_iff_plain daemon⟩
  rw [handleIpcClient_eq, handleIpcClient_eq, hsame]

/-- A daemon that accepts every configuration. -/
def accepting : IpcDaemon where
  statusJson _ := []
  pushConfig _ _ := true
  configPathJson := bytes "\"/etc/rawaccel.json\""

theorem requests_framed_split :
    handleIpcClient accepting [bytes "set_config 2", bytes "\n\x7b", [], bytes "\x7d"] {} =
      handleIpcClient accepting [bytes "set_config 2\n\x7b\x7d"] {} ∧
    (handleIpcClient accepting [bytes "set_config 2\n\x7b\x7d"] {}).1.pushes =
      [bytes "\x7b\x7d"] :=
  ⟨(requests_framed accepting).1 _ _ {} (by decide), by decide +kernel⟩

/-- A negative size that is one after it has wrapped around. -/
def negativeSize : Bytes := bytes "set_config -18446744073709551615"

/-- It pushes a byte; and an app is reported by a line that has no end. -/
theorem requests_misframed : ¬Framed accepting (negativeSize ++ newline :: bytes "x") ∧
    ¬Framed accepting (setActiveApp ++ List.replicate 241 0x61) := by
  refine ⟨fun hframed => ?_, fun hframed => ?_⟩
  · have hpushes : (handleIpcClient accepting [negativeSize ++ newline :: bytes "x"] {}).1.pushes =
        [bytes "x"] := by decide +kernel
    obtain ⟨digits, hdigits, -, -, hall, -⟩ :=
      (documented_iff (by decide)).mp (((hframed {}).2.1 (bytes "x")).mp hpushes)
    have hsize : digits = negativeSize.drop setConfig.length := by
      rw [hdigits, List.drop_left]
    rw [hsize] at hall
    exact absurd hall (by decide)
  · have hdirty : (handleIpcClient accepting
        [setActiveApp ++ List.replicate 241 0x61] {}).1.activeAppDirty = true := by decide +kernel
    have hcut : newline ∉ (setActiveApp ++ List.replicate 241 0x61).take 256 := by decide +kernel
    rw [(hframed {}).2.2 hcut] at hdirty
    cases hdirty

end AbrekMouse
