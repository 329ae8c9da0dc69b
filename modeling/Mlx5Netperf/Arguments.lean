import Mlx5Netperf.Lib.Getopt
import Mlx5Netperf.Lib.Scanning
import Mlx5Netperf.State

/-!
# Command-Line Arguments

`parse_args` of `main.c` with the conversions of `inc/base/parse.h` and `pci.c`
that it calls. The settings are the static variables that it writes.
-/

namespace Mlx5Netperf

open Getopt Scanning

/-- A string of the argument vector. -/
abbrev CString := List Char

/-! ## Conversions -/

/-- `str_to_mac` -/
def strToMac (s : CString) : Option EthAddr :=
  let value : Directive := .int false 16 (some 2)
  match sscanf [value, .literal ':', value, .literal ':', value, .literal ':', value, .literal ':',
    value, .literal ':', value, .skipChar] s with
  | [a, b, c, d, e, f] => some #v[UInt8.ofInt a, UInt8.ofInt b, UInt8.ofInt c, UInt8.ofInt d,
    UInt8.ofInt e, UInt8.ofInt f]
  | _ => none

/-- `MAKE_IP_ADDR` -/
def makeIpAddr (a b c d : UInt8) : UInt32 :=
  (a.toUInt32 <<< 24) ||| (b.toUInt32 <<< 16) ||| (c.toUInt32 <<< 8) ||| d.toUInt32

/-- `str_to_ip` -/
def strToIp (s : CString) : Option UInt32 :=
  let value : Directive := .int false 10 none
  match sscanf [value, .literal '.', value, .literal '.', value, .literal '.', value] s with
  | [a, b, c, d] =>
    some (makeIpAddr (UInt8.ofInt a) (UInt8.ofInt b) (UInt8.ofInt c) (UInt8.ofInt d))
  | _ => none

/-- `struct pci_addr` -/
structure PciAddr where
  domain : UInt16
  bus : UInt8
  slot : UInt8
  func : UInt8
  deriving DecidableEq, Repr

/-- `pci_str_to_addr` -/
def pciStrToAddr (s : CString) : Option PciAddr :=
  match sscanf [.int false 16 (some 4), .literal ':', .int false 16 (some 2), .literal ':',
    .int false 16 (some 2), .literal '.', .int true 10 none] s with
  | [domain, bus, slot, func] =>
    some ⟨UInt16.ofInt domain, UInt8.ofInt bus, UInt8.ofInt slot, UInt8.ofInt func⟩
  | _ => none

/-- `str_to_long`: its return value, and `*val`. `errno` may be `ERANGE` from before. -/
def strToLong (erange : Bool) (s : CString) : Int32 × Int64 :=
  let r := strtol s
  let atEnd := r.endptr = [] ∨ r.endptr.head? = some '\n'
  let limit := r.value = Int64.minValue ∨ r.value = Int64.maxValue
  if r.endptr = s ∨ ¬ atEnd ∨ (limit ∧ (erange ∨ r.erange)) then (-einval, r.value)
  else (0, r.value)

/-- `str_to_long(optarg, &tmp)` and the conversion of `tmp` to a size. The return
value is dropped, so a string that is no number counts as well. -/
def optargNumber (s : CString) : UInt64 := (strToLong false s).2.toUInt64

/-! ## The settings -/

/-- `mode` -/
inductive Mode where
  | udpClient
  | udpServer
  deriving DecidableEq, Repr

/-- The static variables that `parse_args` writes. A log file that is not given is `none`. -/
structure Settings where
  mode : Mode
  nicPciAddr : PciAddr
  clientMac : EthAddr
  serverMac : EthAddr
  clientIp : UInt32
  serverIp : UInt32
  numSegments : UInt64
  segmentSize : UInt64
  workingSetSize : UInt64
  busyWorkUs : UInt64
  busyIters : UInt64
  zeroCopy : Bool
  usingRefCounting : Bool
  readIncomingPacket : Bool
  echoMode : Bool
  ratePps : UInt64
  totalTime : UInt64
  latencyLog : Option CString
  readyFile : Option CString
  numRefcntArrays : UInt64
  numTotalSegments : UInt64
  deriving DecidableEq

/-- The values they are defined with. -/
def Settings.default : Settings where
  mode := .udpClient
  nicPciAddr := ⟨0, 0, 0, 0⟩
  clientMac := Vector.replicate 6 0
  serverMac := Vector.replicate 6 0
  clientIp := 0
  serverIp := 0
  numSegments := 1
  segmentSize := 1024
  workingSetSize := 16384
  busyWorkUs := 0
  busyIters := 0
  zeroCopy := true
  usingRefCounting := false
  readIncomingPacket := false
  echoMode := false
  ratePps := 5000
  totalTime := 2
  latencyLog := none
  readyFile := none
  numRefcntArrays := 1
  numTotalSegments := 16384

/-! ## The options -/

/-- `long_options` -/
def longOptions : List LongOption := [
  ⟨"mode".toList, .required, 'm'⟩,
  ⟨"pci_addr".toList, .required, 'w'⟩,
  ⟨"client_mac".toList, .required, 'c'⟩,
  ⟨"server_mac".toList, .required, 'e'⟩,
  ⟨"client_ip".toList, .required, 'i'⟩,
  ⟨"server_ip".toList, .required, 's'⟩,
  ⟨"num_segments".toList, .optional, 'k'⟩,
  ⟨"segment_size".toList, .optional, 'q'⟩,
  ⟨"rate".toList, .optional, 'r'⟩,
  ⟨"time".toList, .optional, 't'⟩,
  ⟨"array_size".toList, .optional, 'a'⟩,
  ⟨"busy_work_us".toList, .optional, 'y'⟩,
  ⟨"latency_log".toList, .optional, 'l'⟩,
  ⟨"ready_file".toList, .optional, 'f'⟩,
  ⟨"num_refcnt_arrays".toList, .optional, 'h'⟩,
  ⟨"with_copy".toList, .no, 'z'⟩,
  ⟨"read_incoming_packet".toList, .no, 'd'⟩,
  ⟨"echo_mode".toList, .no, 'b'⟩,
  ⟨"using_ref_counting".toList, .no, 'g'⟩]

/-- The two tables of `parse_args`. -/
def argumentOptions : Options := ⟨"m:w:c:e:i:s:k:q:a:z:g:r:t:l:d:b:f:h:".toList, longOptions⟩

/-- How the loop ends before all options are read. -/
inductive Stop where
  /-- `return -EINVAL` -/
  | invalid
  /-- `exit(EXIT_FAILURE)` -/
  | exit
  /-- a null `optarg` is read -/
  | nullPointer
  deriving DecidableEq, Repr

/-- `optarg`, as a string that is read. -/
def readOptarg (p : Parsed) : Except Stop CString :=
  match p.optarg with
  | none => .error .nullPointer
  | some s => .ok s

/-- A case that converts `optarg` and gives up when it cannot. -/
def convertOptarg {α : Type} (p : Parsed) (convert : CString → Option α) (set : α → Settings) :
    Except Stop Settings :=
  (readOptarg p).bind fun s =>
    match convert s with
    | none => .error .invalid
    | some a => .ok (set a)

/-- A case that stores a number. -/
def storeNumber (p : Parsed) (set : UInt64 → Settings) : Except Stop Settings :=
  (readOptarg p).map fun s => set (optargNumber s)

/-- The argument of `--mode`. -/
def parseMode (s : CString) : Option Mode :=
  if s = "CLIENT".toList then some .udpClient
  else if s = "SERVER".toList then some .udpServer
  else none

/-- What the environment adds: `POSIXLY_CORRECT`, and the number of iterations that
`calibrate_busy_work` finds by measuring time. -/
structure Environment where
  posixlyCorrect : Bool
  calibrateBusyWork : UInt64 → UInt64

/-- The `switch` of `parse_args`. -/
def applyOption (env : Environment) (s : Settings) (p : Parsed) : Except Stop Settings :=
  match p.opt with
  | 'm' => convertOptarg p parseMode fun mode => { s with mode := mode }
  | 'w' => convertOptarg p pciStrToAddr fun addr => { s with nicPciAddr := addr }
  | 'c' => convertOptarg p strToMac fun mac => { s with clientMac := mac }
  | 'e' => convertOptarg p strToMac fun mac => { s with serverMac := mac }
  | 'i' => convertOptarg p strToIp fun ip => { s with clientIp := ip }
  | 's' => convertOptarg p strToIp fun ip => { s with serverIp := ip }
  | 'k' => storeNumber p fun n => { s with numSegments := n }
  | 'q' => storeNumber p fun n => { s with segmentSize := n }
  | 'a' => storeNumber p fun n => { s with workingSetSize := n }
  | 'y' => storeNumber p fun n =>
    { s with busyWorkUs := n, busyIters := env.calibrateBusyWork n }
  | 'z' => .ok { s with zeroCopy := false }
  | 'g' => .ok { s with usingRefCounting := true }
  | 'r' => storeNumber p fun n => { s with ratePps := n }
  | 't' => storeNumber p fun n => { s with totalTime := n }
  | 'l' => (readOptarg p).map fun file => { s with latencyLog := some file }
  | 'd' => .ok { s with readIncomingPacket := true }
  | 'b' => .ok { s with echoMode := true }
  | 'f' => (readOptarg p).map fun file => { s with readyFile := some file }
  | 'h' => storeNumber p fun n => { s with numRefcntArrays := n }
  | _ => .error .exit

/-- How `parse_args` ends. -/
inductive Outcome where
  /-- `return 0` -/
  | returned (s : Settings)
  | stopped (why : Stop)
  /-- `working_set_size / segment_size` with a divisor of zero -/
  | dividedByZero
  deriving DecidableEq

/-- `num_total_segments = working_set_size / segment_size` -/
def Settings.countSegments (s : Settings) : Settings :=
  { s with numTotalSegments := s.workingSetSize / s.segmentSize }

/-- The loop of `parse_args`. The segments are counted again after every option. -/
def parseArgsLoop (env : Environment) : List Parsed → Settings → Outcome
  | [], s => .returned s
  | p :: ps, s =>
    match applyOption env s p with
    | .error why => .stopped why
    | .ok s =>
      if s.segmentSize = 0 then .dividedByZero
      else parseArgsLoop env ps s.countSegments

/-- `parse_args` on an argument vector that starts with the name of the program. -/
def parseArgs (env : Environment) (argv : List CString) : Outcome :=
  parseArgsLoop env (getoptLong argumentOptions env.posixlyCorrect argv.tail) .default

end Mlx5Netperf
