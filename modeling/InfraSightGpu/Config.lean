import InfraSightGpu.Aggregator

namespace InfraSightGpu.Config

open InfraSightGpu.Events InfraSightGpu.Fingerprint InfraSightGpu.Aggregator

/-- The flags of the command line; one that is not given is empty. -/
structure Flags where
  tracer : GoString
  serverAddr : GoString
  serverPort : GoString
  prometheusPort : GoString
  cudaLibPath : GoString
  timeWindow : GoString

/-- What `LoadConfig` reads of the host: the environment, `os.Hostname` and
whether `os.Stat` finds a path. -/
structure Host where
  getenv : String → GoString
  hostname : Option GoString
  stat : GoString → Bool

structure Programsconfig where
  enableProbes : List GoString
  serverAdress : GoString
  serverport : GoString
  prometheusPort : GoString
  nodename : GoString
  cudaLibraryPath : GoString
  timeWindow : Int64

def bytes (s : String) : GoString := s.toUTF8.toList

def parseDigits : ℕ → GoString → Option ℕ
  | n, [] => some n
  | n, c :: s => if 48 ≤ c ∧ c ≤ 57 then parseDigits (10 * n + (c.toNat - 48)) s else none

/-- `strconv.ParseInt` in base 10 with 64 bits, without its errors. -/
def parseInt (s : GoString) : Option Int64 :=
  let neg := s.head? = some 45
  let s := if s.head? = some 43 ∨ neg then s.tail else s
  if s = [] then none
  else (parseDigits 0 s).bind fun un =>
    if neg then if un ≤ 2 ^ 63 then some (Int64.ofInt (-un)) else none
    else if un < 2 ^ 63 then some (Int64.ofInt un) else none

/-- The encodings of the white space of Unicode, which `strings.TrimSpace`
removes. -/
def spaces : List GoString :=
  ["\t", "\n", "\x0b", "\x0c", "\r", " ", "\u0085", "\u00a0", "\u1680", "\u2000", "\u2001",
    "\u2002", "\u2003", "\u2004", "\u2005", "\u2006", "\u2007", "\u2008", "\u2009", "\u200a",
    "\u2028", "\u2029", "\u202f", "\u205f", "\u3000"].map bytes

def trimLeft (cut : List GoString) : ℕ → GoString → GoString
  | 0, s => s
  | n + 1, s =>
    match cut.find? (·.isPrefixOf s) with
    | some p => trimLeft cut n (s.drop p.length)
    | none => s

def trimSpace (s : GoString) : GoString :=
  let s := trimLeft spaces s.length s
  (trimLeft (spaces.map List.reverse) s.length s.reverse).reverse

def orEnv (host : Host) (s : GoString) (name : String) : GoString :=
  if s = [] then host.getenv name else s

def commonLibs : List GoString :=
  ["/usr/lib/x86_64-linux-gnu/libcuda.so.1", "/usr/local/cuda/compat/libcuda.so.1"].map bytes

def orDefault (timeWindow : GoString) : GoString :=
  if timeWindow = [] then bytes "2" else timeWindow

def window (timeWindow : GoString) : Int64 := (parseInt (orDefault timeWindow)).getD 2

def second : Int64 := 1000000000

def nodeName (host : Host) : GoString :=
  let nodeName := host.getenv "NODE_NAME"
  if nodeName = [] then host.hostname.getD (bytes "unknown-host") else nodeName

def cudaLibPath (flags : Flags) (host : Host) : GoString :=
  let cudaLibPath := orEnv host flags.cudaLibPath "CUDA_LIB_PATH"
  if cudaLibPath = [] then (commonLibs.find? host.stat).getD [] else cudaLibPath

/-- An error is the message with which the logger ends the program. -/
def loadConfig (flags : Flags) (host : Host) : Except String Programsconfig :=
  let serverAddr := orEnv host flags.serverAddr "SERVER_ADDR"
  let serverPort := orEnv host flags.serverPort "SERVER_PORT"
  if serverAddr = [] then .error "Server address is missing"
  else if serverPort = [] then .error "Server port is missing"
  else
    let prometheusPort := orEnv host flags.prometheusPort "PROMETHEUS_PORT"
    let tracer := orEnv host flags.tracer "TRACER"
    if tracer = [] then .error "No probes specified for the program to run"
    else if cudaLibPath flags host = [] then .error "Libcuda.so not found"
    else .ok
      { enableProbes := (tracer.splitOn 44).map trimSpace
        serverAdress := serverAddr
        serverport := serverPort
        prometheusPort := prometheusPort
        nodename := nodeName host
        cudaLibraryPath := cudaLibPath flags host
        timeWindow := window flags.timeWindow * second }

/-- `time.NewTicker` panics when the interval is not positive. -/
def newTicker (d : Duration) : Option Duration := if d ≤ 0 then none else some d

/-- The seconds that the flag asks for: two when it is no positive number. -/
def secondsAsked (timeWindow : GoString) : ℤ :=
  match parseInt (orDefault timeWindow) with
  | some n => if 0 < n.toInt then n.toInt else 2
  | none => 2

/-- The runner gets its ticker and windows end after they start; the duration
is the one asked for, and the multiplication that computed it did not wrap. -/
structure Faithful (timeWindow : GoString) (d : Int64) : Prop where
  positive : 0 < d.toInt
  ticks : newTicker d.toInt = some d.toInt
  opens : ∀ now pid comm, (newWindow (F := ℚ) d.toInt now pid comm).windowStart <
    (newWindow (F := ℚ) d.toInt now pid comm).windowEnd
  exact : d.toInt = secondsAsked timeWindow * 1000000000
  unwrapped : d.toInt = (window timeWindow).toInt * 1000000000

/-- The flag is no number, or a positive number of seconds that a duration holds. -/
def Representable (timeWindow : GoString) : Prop :=
  ∀ n, parseInt (orDefault timeWindow) = some n → 0 < n.toInt ∧ n.toInt ≤ 9223372036

theorem loadConfig_returns_iff (flags : Flags) (host : Host) :
    (∃ cfg, loadConfig flags host = .ok cfg) ↔
      orEnv host flags.serverAddr "SERVER_ADDR" ≠ [] ∧
      orEnv host flags.serverPort "SERVER_PORT" ≠ [] ∧
      orEnv host flags.tracer "TRACER" ≠ [] ∧ cudaLibPath flags host ≠ [] := by
  unfold loadConfig
  dsimp only
  split_ifs with haddr hport htracer hlib
  · simp [haddr]
  · simp [hport]
  · simp [htracer]
  · simp [hlib]
  · simp [haddr, hport, htracer, hlib]

theorem loadConfig_complete {flags : Flags} {host : Host} {cfg : Programsconfig}
    (h : loadConfig flags host = .ok cfg) :
    cfg.serverAdress ≠ [] ∧ cfg.serverport ≠ [] ∧ cfg.cudaLibraryPath ≠ [] ∧
      cfg.enableProbes ≠ [] := by
  obtain ⟨haddr, hport, htracer, hlib⟩ := (loadConfig_returns_iff flags host).mp ⟨cfg, h⟩
  rw [loadConfig, if_neg haddr, if_neg hport, if_neg htracer, if_neg hlib] at h
  cases h
  exact ⟨haddr, hport, hlib, by simp [List.splitOn_ne_nil]⟩

theorem loadConfig_timeWindow {flags : Flags} {host : Host} {cfg : Programsconfig}
    (h : loadConfig flags host = .ok cfg) :
    cfg.timeWindow = window flags.timeWindow * second := by
  obtain ⟨haddr, hport, htracer, hlib⟩ := (loadConfig_returns_iff flags host).mp ⟨cfg, h⟩
  rw [loadConfig, if_neg haddr, if_neg hport, if_neg htracer, if_neg hlib] at h
  cases h
  rfl

theorem toInt_mul_second (w : Int64) :
    (w * second).toInt = (w.toInt * 1000000000).bmod (2 ^ 64) := by
  rw [Int64.toInt_mul]
  rfl

theorem faithful_of_pos {timeWindow : GoString} {d : Int64} (hpos : 0 < d.toInt)
    (hexact : d.toInt = secondsAsked timeWindow * 1000000000)
    (hwrap : d.toInt = (window timeWindow).toInt * 1000000000) : Faithful timeWindow d where
  positive := hpos
  ticks := if_neg (not_le.mpr hpos)
  opens now pid comm := by simpa [newWindow] using hpos
  exact := hexact
  unwrapped := hwrap

theorem toInt_mul_second_of_le {w : Int64} (hpos : 0 < w.toInt) (hle : w.toInt ≤ 9223372036) :
    (w * second).toInt = w.toInt * 1000000000 := by
  rw [toInt_mul_second]
  exact Int.bmod_eq_of_le (by omega) (by omega)

theorem faithful_iff (timeWindow : GoString) :
    Faithful timeWindow (window timeWindow * second) ↔ Representable timeWindow := by
  constructor
  · intro hf n hn
    have hw : window timeWindow = n := by rw [window, hn, Option.getD_some]
    have hpos := hf.positive
    have hbound := (window timeWindow * second).toInt_lt
    rw [hf.unwrapped, hw] at hpos hbound
    constructor <;> omega
  · intro hr
    cases hp : parseInt (orDefault timeWindow) with
    | none =>
      have hw : window timeWindow = 2 := by rw [window, hp, Option.getD_none]
      have hs : secondsAsked timeWindow = 2 := by rw [secondsAsked, hp]
      rw [hw]
      exact faithful_of_pos (by decide) (by rw [hs]; rfl) (by rw [hw]; rfl)
    | some n =>
      obtain ⟨hpos, hle⟩ := hr n hp
      have hw : window timeWindow = n := by rw [window, hp, Option.getD_some]
      have hs : secondsAsked timeWindow = n.toInt := by
        simp only [secondsAsked, hp, if_pos hpos]
      have hmul := toInt_mul_second_of_le hpos hle
      rw [hw]
      exact faithful_of_pos (by omega) (by rw [hs, hmul]) (by rw [hw, hmul])

/-- The window of a configuration is the one asked for, and usable, exactly
when the flag is no number or a number of seconds between 1 and 9223372036. -/
theorem timeWindow_faithful_iff {flags : Flags} {host : Host} {cfg : Programsconfig}
    (h : loadConfig flags host = .ok cfg) :
    Faithful flags.timeWindow cfg.timeWindow ↔ Representable flags.timeWindow := by
  rw [loadConfig_timeWindow h]
  exact faithful_iff flags.timeWindow

def commandLine (timeWindow : String) : Flags where
  tracer := bytes "fingerprint"
  serverAddr := bytes "127.0.0.1"
  serverPort := bytes "8080"
  prometheusPort := []
  cudaLibPath := bytes "/usr/lib/libcuda.so"
  timeWindow := bytes timeWindow

def bareHost : Host where
  getenv _ := []
  hostname := none
  stat _ := false

theorem loadConfig_commandLine (timeWindow : String) :
    ∃ cfg, loadConfig (commandLine timeWindow) bareHost = .ok cfg := by
  refine (loadConfig_returns_iff _ _).mpr ⟨?_, ?_, ?_, ?_⟩
  · exact (by decide +kernel : orEnv bareHost (bytes "127.0.0.1") "SERVER_ADDR" ≠ [])
  · exact (by decide +kernel : orEnv bareHost (bytes "8080") "SERVER_PORT" ≠ [])
  · exact (by decide +kernel : orEnv bareHost (bytes "fingerprint") "TRACER" ≠ [])
  · exact (by decide +kernel : cudaLibPath (commandLine "") bareHost ≠ [])

theorem timeWindow_faithful_longest : ∃ cfg,
    loadConfig (commandLine "9223372036") bareHost = .ok cfg ∧
    (Faithful (bytes "9223372036") cfg.timeWindow ↔ Representable (bytes "9223372036")) := by
  obtain ⟨cfg, hcfg⟩ := loadConfig_commandLine "9223372036"
  exact ⟨cfg, hcfg, timeWindow_faithful_iff hcfg⟩

/-- Zero seconds make the ticker panic, and 2^55 + 2 seconds are taken for two. -/
theorem unusable_windows :
    (∃ cfg, loadConfig (commandLine "0") bareHost = .ok cfg ∧
      newTicker cfg.timeWindow.toInt = none ∧ ¬ Faithful (bytes "0") cfg.timeWindow) ∧
    ∃ cfg, loadConfig (commandLine "36028797018963970") bareHost = .ok cfg ∧
      cfg.timeWindow = 2 * second ∧ ¬ Faithful (bytes "36028797018963970") cfg.timeWindow := by
  constructor
  · obtain ⟨cfg, hcfg⟩ := loadConfig_commandLine "0"
    have hd : cfg.timeWindow = 0 := by
      rw [loadConfig_timeWindow hcfg]
      decide +kernel
    refine ⟨cfg, hcfg, ?_, fun hf => ?_⟩
    · rw [hd]
      decide
    · exact absurd hf.positive (by rw [hd]; decide)
  · obtain ⟨cfg, hcfg⟩ := loadConfig_commandLine "36028797018963970"
    have hd : cfg.timeWindow = 2 * second := by
      rw [loadConfig_timeWindow hcfg]
      decide +kernel
    have hasked : secondsAsked (bytes "36028797018963970") = 36028797018963970 := by
      decide +kernel
    refine ⟨cfg, hcfg, hd, fun hf => ?_⟩
    have hexact := hf.exact
    rw [hd, hasked] at hexact
    exact absurd hexact (by decide)

end InfraSightGpu.Config
