import Mathlib.Data.Multiset.AddSub
import Mathlib.Data.List.Infix

/-!
# The tether offload HAL

`Tetheroffload` keeps what a client has configured, and tells it to the driver with
one `ioctl` a call. A call checks its arguments, updates the members and talks to the
driver, each in an order of its own, and reports `true` or `false` to the client.

Whether the `ioctl` of a call succeeds and whether the system knows an interface is
not for the HAL to choose: it is in the `Env` of the call. Neither is which strings
`inet_pton` takes for an address.
-/

namespace ExynosVendor.Tether

/-- A string of the HAL. -/
abbrev Str := List Char

/-- What `c_str` shows of a string. -/
def cStr (s : Str) : Str := s.takeWhile (· ≠ '\x00')

def IFNAMSIZ : ℕ := 16

/-- A name of an interface as it is in an `iface_info`. -/
def ifname (iface : Str) : Str := (cStr iface).take (IFNAMSIZ - 1)

inductive AddressFamily where
  | inet
  | inet6
  deriving DecidableEq

/-- `struct uIfaceinfo`, with its `_upstreaminfo`. -/
@[ext]
structure UIfaceinfo where
  iface : Str
  limit : ℕ
  v4Addr : Str
  v4Gw : Str
  v6Gws : List Str
  deriving DecidableEq

/-- `struct dIfaceinfo`, with its `_downstreaminfo`. -/
structure DIfaceinfo where
  iface : Str
  dPrefix : Str
  deriving DecidableEq

/-- The members of `Tetheroffload` that a client configures. -/
@[ext]
structure Tetheroffload where
  mCtrlCb : Option ℕ
  mLocalPrefixes : List Str
  mUpstream : UIfaceinfo
  mDownstreams : List DIfaceinfo
  deriving DecidableEq

def Tetheroffload.isInitialized (hal : Tetheroffload) : Bool := hal.mCtrlCb.isSome

/-- What the driver has been told: whether the last `INIT` or `STOP` that it took was
`INIT`, the upstream interface, the data limit, and the downstream interfaces that were
added and not yet removed. -/
@[ext]
structure Driver where
  initialised : Bool
  upstream : Option Str
  dataLimit : Option ℕ
  downstreams : Multiset Str

@[ext]
structure System where
  hal : Tetheroffload
  driver : Driver

/-- What the system answers to a call: whether its `ioctl` succeeds, and whether the
name of an interface is found. -/
structure Env where
  ioctl : Bool
  interfaceFound : Bool
  deriving DecidableEq

/-- `checkInterfaceStat`, which lets some names pass. -/
def checkInterfaceStat (env : Env) (name : Str) : Bool :=
  if IFNAMSIZ ≤ name.length then false
  else if "rmnet".toList <:+: name ∨ "dummy".toList <:+: name then true
  else env.interfaceFound

section Addresses

variable (inetPton : AddressFamily → Str → Bool)

/-- `parseAddress`: the family, the address and the netmask. -/
def parseAddress (str : Str) : Option (AddressFamily × Str × Str) :=
  let af := if ':' ∈ str then AddressFamily.inet6 else .inet
  let parsed : Option (Str × Str) :=
    if '/' ∈ str then
      let pos := str.idxOf '/'
      if pos = 0 then none else some (str.take pos, str.drop (pos + 1))
    else some (str, [])
  parsed.bind fun parsed => if inetPton af (cStr parsed.1) then some (af, parsed) else none

/-- An address of a family. -/
def parseFamily (af : AddressFamily) (str : Str) : Option Str :=
  (parseAddress inetPton str).bind fun parsed => if parsed.1 = af then some parsed.2.1 else none

end Addresses

/-! ## The calls

Each answers what it reports, and the system that it leaves. -/

/-- `initOffload`; the callback may be null. -/
def initOffload (env : Env) (s : System) (cb : Option ℕ) : Bool × System :=
  if s.hal.isInitialized then (false, s)
  else
    let hal := { s.hal with mCtrlCb := cb }
    if env.ioctl then (true, ⟨hal, { s.driver with initialised := true }⟩)
    else (false, ⟨hal, s.driver⟩)

def stopOffload (env : Env) (s : System) : Bool × System :=
  if s.hal.isInitialized then
    let hal := { s.hal with mCtrlCb := none }
    if s.hal.mUpstream.iface = [] then (false, ⟨hal, s.driver⟩)
    else if env.ioctl then (true, ⟨hal, { s.driver with initialised := false }⟩)
    else (false, ⟨hal, s.driver⟩)
  else (false, s)

section Calls

variable (inetPton : AddressFamily → Str → Bool)

/-- The first loop of `setLocalPrefixes`: what it appends to the gateways, and whether
it goes through. -/
def checkPrefixes : List Str → List Str × Bool
  | [] => ([], true)
  | prfix :: prefixes =>
      if prfix = [] then
        let rest := checkPrefixes prefixes
        ([] :: rest.1, rest.2)
      else
        match parseAddress inetPton prfix with
        | none => ([], false)
        | some parsed =>
            let rest := checkPrefixes prefixes
            (parsed.2.1 :: rest.1, rest.2)

/-- The second: the local prefixes with the new ones, and whether it goes through. -/
def addPrefixes : List Str → List Str → List Str × Bool
  | mLocalPrefixes, [] => (mLocalPrefixes, true)
  | mLocalPrefixes, prfix :: prefixes =>
      match parseAddress inetPton prfix with
      | none => (mLocalPrefixes, false)
      | some parsed =>
          addPrefixes
            (if parsed.2.1 ∈ mLocalPrefixes then mLocalPrefixes
              else mLocalPrefixes ++ [parsed.2.1])
            prefixes

/-- `setLocalPrefixes`, which does not talk to the driver. -/
def setLocalPrefixes (s : System) (prefixes : List Str) : Bool × System :=
  if s.hal.isInitialized = false then (false, s)
  else if prefixes.length < 1 then (false, s)
  else
    let checked := checkPrefixes inetPton prefixes
    let hal := { s.hal with
      mUpstream := { s.hal.mUpstream with v6Gws := s.hal.mUpstream.v6Gws ++ checked.1 } }
    if checked.2 then
      let added := addPrefixes inetPton hal.mLocalPrefixes prefixes
      (added.2, ⟨{ hal with mLocalPrefixes := added.1 }, s.driver⟩)
    else (false, ⟨hal, s.driver⟩)

/-- The loop of `setUpstreamParameters` over the gateways: the addresses that it appends,
and whether it goes through. -/
def loadGateways : List Str → List Str × Bool
  | [] => ([], true)
  | v6gw :: v6Gws =>
      if v6gw = [] then ([], false)
      else
        match parseFamily inetPton .inet6 v6gw with
        | none => ([], false)
        | some addr =>
            let rest := loadGateways v6Gws
            (addr :: rest.1, rest.2)

/-- What is stored for a v4 address: nothing new for an empty one, and nothing at all for
one that is none. -/
def loadV4 (str stored : Str) : Option Str :=
  if str = [] then some stored else parseFamily inetPton .inet str

def setUpstreamParameters (env : Env) (s : System) (iface v4Addr v4Gw : Str)
    (v6Gws : List Str) : Bool × System :=
  if s.hal.isInitialized = false then (false, s)
  else
    let gateways := loadGateways inetPton v6Gws
    let hal := { s.hal with mUpstream := { s.hal.mUpstream with v6Gws := gateways.1 } }
    if gateways.2 = false then (false, ⟨hal, s.driver⟩)
    else if iface = [] then (false, ⟨hal, s.driver⟩)
    else
      let hal := { hal with mUpstream := { hal.mUpstream with iface := iface } }
      if checkInterfaceStat env iface = false then (false, ⟨hal, s.driver⟩)
      else if env.ioctl = false then (false, ⟨hal, s.driver⟩)
      else
        let driver := { s.driver with upstream := some (ifname iface) }
        match loadV4 inetPton v4Addr hal.mUpstream.v4Addr with
        | none => (false, ⟨hal, driver⟩)
        | some v4Addr =>
            let hal := { hal with mUpstream := { hal.mUpstream with v4Addr := v4Addr } }
            match loadV4 inetPton v4Gw hal.mUpstream.v4Gw with
            | none => (false, ⟨hal, driver⟩)
            | some v4Gw =>
                (true, ⟨{ hal with mUpstream := { hal.mUpstream with v4Gw := v4Gw } }, driver⟩)

def setDataLimit (env : Env) (s : System) (upstream : Str) (limit : ℕ) : Bool × System :=
  if s.hal.isInitialized = false then (false, s)
  else if s.hal.mUpstream.iface ≠ upstream then (false, s)
  else if checkInterfaceStat env upstream = false then (false, s)
  else
    let hal :=
      if cStr s.hal.mUpstream.iface = cStr upstream then
        { s.hal with mUpstream := { s.hal.mUpstream with limit := limit } }
      else s.hal
    if env.ioctl then (true, ⟨hal, { s.driver with dataLimit := some limit }⟩)
    else (false, ⟨hal, s.driver⟩)

/-- What `addDownstream` and `removeDownstream` check first. -/
def checkDownstream (env : Env) (s : System) (iface dPrefix : Str) : Bool :=
  s.hal.isInitialized && iface ≠ [] && checkInterfaceStat env iface &&
    (parseAddress inetPton dPrefix).isSome

def addDownstream (env : Env) (s : System) (iface dPrefix : Str) : Bool × System :=
  if checkDownstream inetPton env s iface dPrefix then
    let hal := { s.hal with mDownstreams := s.hal.mDownstreams ++ [⟨iface, dPrefix⟩] }
    if env.ioctl then
      (true, ⟨hal, { s.driver with downstreams := ifname iface ::ₘ s.driver.downstreams }⟩)
    else (false, ⟨hal, s.driver⟩)
  else (false, s)

/-- `removeDownstream`: the first with the name of the interface. -/
def removeDownstream (env : Env) (s : System) (iface dPrefix : Str) : Bool × System :=
  if checkDownstream inetPton env s iface dPrefix then
    match s.hal.mDownstreams.findIdx? fun ds => cStr ds.iface = cStr iface with
    | none => (false, s)
    | some i =>
        if env.ioctl then
          (true,
            ⟨{ s.hal with mDownstreams := s.hal.mDownstreams.eraseIdx i },
              { s.driver with
                downstreams := s.driver.downstreams.erase
                  (ifname (s.hal.mDownstreams[i]?.elim [] DIfaceinfo.iface)) }⟩)
        else (false, s)
  else (false, s)

/-- The calls of `IOffloadControl` that configure. -/
inductive Call where
  | initOffload (cb : Option ℕ)
  | stopOffload
  | setLocalPrefixes (prefixes : List Str)
  | setUpstreamParameters (iface v4Addr v4Gw : Str) (v6Gws : List Str)
  | setDataLimit (upstream : Str) (limit : ℕ)
  | addDownstream (iface dPrefix : Str)
  | removeDownstream (iface dPrefix : Str)
  deriving DecidableEq

/-- A call. -/
def call (env : Env) (s : System) : Call → Bool × System
  | .initOffload cb => initOffload env s cb
  | .stopOffload => stopOffload env s
  | .setLocalPrefixes prefixes => setLocalPrefixes inetPton s prefixes
  | .setUpstreamParameters iface v4Addr v4Gw v6Gws =>
      setUpstreamParameters inetPton env s iface v4Addr v4Gw v6Gws
  | .setDataLimit upstream limit => setDataLimit env s upstream limit
  | .addDownstream iface dPrefix => addDownstream inetPton env s iface dPrefix
  | .removeDownstream iface dPrefix => removeDownstream inetPton env s iface dPrefix

end Calls

/-- The constructor of `Tetheroffload`, which leaves the data limit as memory has it, and a
driver that was told nothing. -/
def System.initial (limit : ℕ) : System where
  hal := ⟨none, [], ⟨[], limit, [], [], []⟩, []⟩
  driver := ⟨false, none, none, 0⟩

end ExynosVendor.Tether
