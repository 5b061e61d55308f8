import ExynosVendor.Common.Run
import ExynosVendor.Ril.Basic
import Mathlib.Data.List.GetD
import Mathlib.Tactic.IntervalCases

/-!
# The VCD's clients

The client table of `vcd/vcd_socket.cpp` and the thread that serves it.
A client takes the first free slot of the table, but only so many slots
are looked at as there are clients, and a slot is emptied before its
descriptor is closed. `serves_iff` says which runs serve every client.
-/

namespace ExynosVendor.Vcd

open Ril (BYTE)
open List

def invalidFd : ℤ := -1

def maxClientConn : ℕ := 5

def typeNormal : ℤ := 0

def typeApp : ℤ := 1

def idNv : ℤ := 0

def idIms : ℤ := 1

def idApp : ℤ := 2

/-- `str_ClientSock`. -/
structure ClientSock where
  /-- `fd`. -/
  fd : ℤ
  /-- `type`. -/
  type : ℤ
  /-- `id`. -/
  id : ℤ
  deriving DecidableEq

/-- A free slot. -/
def freeSlot : ClientSock := ⟨invalidFd, invalidFd, invalidFd⟩

/-- **The server's state**, the descriptors the kernel holds open for it,
and the clients accepted and not yet disconnected as they have registered
themselves. -/
structure Server where
  /-- `g_ServerSock`. -/
  serverSock : ℤ
  /-- `g_ClientSock`. -/
  clientSock : List ClientSock
  /-- `g_ClientSize`. -/
  clientSize : ℕ
  /-- `g_current_type`. -/
  currentType : ℤ
  /-- The open descriptors. -/
  openFds : List ℤ
  /-- How often a descriptor was closed that was not open. -/
  strayCloses : ℕ
  /-- The clients. -/
  clients : List ClientSock
  deriving DecidableEq

/-- What `read` returns: nothing, or an error, or data. -/
inductive Read where
  | disconnect
  | data (bytes : List BYTE)
  deriving DecidableEq

/-- One turn of `ConnectivityServerThreadProc`, by what `select` reports:
the server socket, and what `accept` returns; or descriptors of clients,
and what is read from them. -/
inductive Round where
  | accept (conn : ℤ)
  | scan (ready : List ℤ) (reads : ℤ → Read)

/-! ## Registration -/

/-- A string's bytes. -/
def bytesOf (s : String) : List BYTE :=
  s.toList.map fun c => BitVec.ofNat 8 c.toNat

/-- `tolower`, in the C locale. -/
def toLower (b : BYTE) : BYTE :=
  if 0x41 ≤ b ∧ b ≤ 0x5A then b + 0x20 else b

/-- `strncasecmp(data, str, strlen(str)) == 0`. -/
def startsWith (data : List BYTE) (str : String) : Bool :=
  (data.take (bytesOf str).length).map toLower = (bytesOf str).map toLower

/-- `setClientSockType`, on the slot. -/
def setClientSockType (c : ClientSock) (data : List BYTE) : ClientSock :=
  if startsWith data "\r\n+VTYPE:1,nv" then { c with type := typeNormal, id := idNv }
  else if startsWith data "\r\n+VTYPE:1,ims" then { c with type := typeNormal, id := idIms }
  else if startsWith data "\r\n+VTYPE:2,app" then { c with type := typeApp, id := idApp }
  else c

@[simp] theorem setClientSockType_fd (c : ClientSock) (data : List BYTE) :
    (setClientSockType c data).fd = c.fd := by
  unfold setClientSockType
  split_ifs <;> rfl

namespace Server

/-- The slot at an index. -/
def slot (s : Server) (index : ℕ) : ClientSock :=
  s.clientSock.getD index freeSlot

def close (s : Server) (fd : ℤ) : Server :=
  if fd ∈ s.openFds then { s with openFds := s.openFds.erase fd }
  else if fd = invalidFd then s
  else { s with strayCloses := s.strayCloses + 1 }

/-- The descriptors `UpdateFdSet` puts into the set. -/
def updateFdSet (s : Server) : List ℤ :=
  s.serverSock :: ((s.clientSock.take s.clientSize).map (·.fd)).filter (· ≠ invalidFd)

/-- `AddClient`: the first free slot. -/
def addClient (s : Server) (fd : ℤ) : Option Server :=
  if fd > 0 then do
    let i ← s.clientSock.findIdx? (·.fd = invalidFd)
    some { s with clientSock := s.clientSock.set i { s.slot i with fd := fd }
                  clientSize := s.clientSize + 1 }
  else none

/-- `AcceptConnection`, with the descriptor `accept` returned. -/
def acceptConnection (s : Server) (conn : ℤ) : Server :=
  if conn = invalidFd then s.close conn
  else
    let s := { s with openFds := s.openFds ++ [conn] }
    match s.addClient conn with
    | none => s.close conn
    | some s => { s with clients := s.clients ++ [{ freeSlot with fd := conn }] }

def removeClient (s : Server) (index : ℕ) : Server :=
  if (s.slot index).fd > 0 then
    { s with currentType := typeNormal
             clientSock := s.clientSock.set index freeSlot
             clientSize := s.clientSize - 1 }
  else s

/-- `setClientSockType`, on the table. -/
def setType (s : Server) (index : ℕ) (data : List BYTE) : Server :=
  let fd := (s.slot index).fd
  { s with clientSock := s.clientSock.set index (setClientSockType (s.slot index) data)
           currentType := if ! startsWith data "\r\n+VTYPE:1,nv" &&
             ! startsWith data "\r\n+VTYPE:1,ims" && startsWith data "\r\n+VTYPE:2,app" then typeApp
             else s.currentType
           clients := s.clients.map fun c =>
             if c.fd = fd then setClientSockType c data else c }

/-- `ProcessSocketData`. The descriptor closed is the slot's, after the
slot has been emptied. Other data go to the callback for the id, and change
nothing here. -/
def processSocketData (s : Server) (index : ℕ) (read : Read) : Server :=
  let fd := (s.slot index).fd
  if fd = invalidFd then s
  else
    match read with
    | .disconnect =>
        let s := { s.removeClient index with clients := s.clients.filter (·.fd ≠ fd) }
        s.close (s.slot index).fd
    | .data bytes =>
        if startsWith bytes "\r\n+VTYPE:" then s.setType index bytes else s

/-- The loop over the slots, so many of them, from an index on. -/
def scanFrom (ready : List ℤ) (reads : ℤ → Read) : ℕ → ℕ → Server → Server
  | 0, _, s => s
  | n + 1, i, s =>
      if i < s.clientSize then
        scanFrom ready reads n (i + 1)
          (if (s.slot i).fd ∈ ready then s.processSocketData i (reads (s.slot i).fd) else s)
      else s

/-- One turn of the thread. -/
def round (s : Server) : Round → Server
  | .accept conn => s.acceptConnection conn
  | .scan ready reads => scanFrom ready reads s.clientSock.length 0 s

/-- The descriptors `SendDataToConnectivity` writes to. -/
def sendDataTo (s : Server) (id : ℤ) : List ℤ :=
  ((s.clientSock.take s.clientSize).filter fun c => c.fd > 0 ∧ c.id = id).map (·.fd)

/-- The server once its socket is there. -/
def start (serverSock : ℤ) : Server where
  serverSock := serverSock
  clientSock := List.replicate maxClientConn freeSlot
  clientSize := 0
  currentType := typeNormal
  openFds := [serverSock]
  strayCloses := 0
  clients := []

/-! ## What the server is for -/

/-- What the kernel promises: a new descriptor is none that is open, and
`select` reports descriptors of the set. -/
def Possible (s : Server) : Round → Prop
  | .accept conn => conn = invalidFd ∨ (0 ≤ conn ∧ conn ∉ s.openFds)
  | .scan ready _ => ∀ fd ∈ ready, fd ∈ s.updateFdSet ∧ fd ≠ s.serverSock

/-- **Every client is served**: it has one slot, which is in the set and
is scanned, and what is sent to the id it has registered reaches it. -/
def Served (s : Server) : Prop :=
  ∀ c ∈ s.clients, ∃ i < s.clientSize, (s.slot i).fd = c.fd ∧
    (∀ j < s.clientSock.length, (s.slot j).fd = c.fd → j = i) ∧ c.fd ∈ s.updateFdSet ∧
    c.fd ∈ s.sendDataTo c.id

/-- **Every descriptor is closed once**: those open are the server's and
the clients', and none was closed that was not. -/
def Tidy (s : Server) : Prop :=
  s.openFds.Perm (s.serverSock :: s.clients.map (·.fd)) ∧ s.strayCloses = 0

end Server

/-- No client disconnects. -/
def NoneLeaves : Round → Prop
  | .accept _ => True
  | .scan ready reads => ∀ fd ∈ ready, reads fd ≠ .disconnect

/-- A client that disconnects is the one in the last slot in use. -/
def LastLeaves (s : Server) : Round → Prop
  | .accept _ => True
  | .scan ready reads => ∀ i < s.clientSize, (s.slot i).fd ∈ ready →
      reads (s.slot i).fd = .disconnect → i + 1 = s.clientSize

/-! ## The slots in use stand together -/

namespace Server

/-- **The clients fill the table from its first slot on.** What every run
keeps in which none but the last client leaves. -/
structure Compact (s : Server) : Prop where
  table : s.clientSock = s.clients ++ List.replicate (maxClientConn - s.clients.length) freeSlot
  size : s.clientSize = s.clients.length
  room : s.clients.length ≤ maxClientConn
  positive : ∀ c ∈ s.clients, 0 < c.fd
  nodup : (s.clients.map (·.fd)).Nodup
  live : ∀ c ∈ s.clients, c.fd ∈ s.openFds
  valid : ∀ fd ∈ s.openFds, 0 ≤ fd

theorem compact_start {serverSock : ℤ} (h : 0 ≤ serverSock) : (start serverSock).Compact where
  table := rfl
  size := rfl
  room := Nat.zero_le _
  positive := fun _ hc => nomatch hc
  nodup := nodup_nil
  live := fun _ hc => nomatch hc
  valid := by
    intro fd hfd
    rw [mem_singleton.mp hfd]
    exact h

namespace Compact

variable {s : Server}

theorem length (h : s.Compact) : s.clientSock.length = maxClientConn := by
  have := h.room
  rw [h.table, length_append, length_replicate]
  omega

theorem slot (h : s.Compact) (i : ℕ) : s.slot i = s.clients.getD i freeSlot := by
  unfold Server.slot
  rw [h.table]
  rcases Nat.lt_or_ge i s.clients.length with hi | hi
  · rw [getD_append _ _ _ _ hi]
  · rw [getD_append_right _ _ _ _ hi, getD_eq_default _ _ hi]
    rcases Nat.lt_or_ge (i - s.clients.length) (maxClientConn - s.clients.length) with hk | hk
    · rw [getD_replicate _ hk]
    · rw [getD_eq_default _ _ (by rw [length_replicate]; exact hk)]

theorem slot_mem (h : s.Compact) {i : ℕ} (hi : i < s.clientSize) : s.slot i ∈ s.clients := by
  rw [h.size] at hi
  rw [h.slot, getD_eq_getElem _ _ hi]
  exact getElem_mem hi

/-- No two slots hold one descriptor. -/
theorem slot_inj (h : s.Compact) {i j : ℕ} (hi : i < s.clientSize) (hj : j < s.clientSize)
    (hij : (s.slot i).fd = (s.slot j).fd) : i = j := by
  rw [h.size] at hi hj
  rw [h.slot, h.slot, getD_eq_getElem _ _ hi, getD_eq_getElem _ _ hj] at hij
  have hfds : (s.clients.map (·.fd)).get ⟨i, by simpa using hi⟩ =
      (s.clients.map (·.fd)).get ⟨j, by simpa using hj⟩ := by
    simpa using hij
  exact congrArg Fin.val (nodup_iff_injective_get.mp h.nodup hfds)

theorem lt_of_slot (h : s.Compact) {i : ℕ} (hi : 0 < (s.slot i).fd) : i < s.clientSize := by
  by_contra hn
  rw [h.slot, getD_eq_default _ _ (by rw [← h.size]; omega)] at hi
  exact absurd hi (by decide)

theorem take_clientSock (h : s.Compact) : s.clientSock.take s.clientSize = s.clients := by
  rw [h.table, h.size, take_left']
  rfl

/-- **A compact table serves every client.** -/
theorem served (h : s.Compact) : s.Served := by
  intro c hc
  obtain ⟨i, hi, rfl⟩ := mem_iff_getElem.mp hc
  have hslot : s.slot i = s.clients[i] := by
    rw [h.slot, getD_eq_getElem _ _ hi]
  have hpos := h.positive _ hc
  have hin : i < s.clientSize := by rw [h.size]; exact hi
  refine ⟨i, hin, by rw [hslot], ?_, ?_, ?_⟩
  · intro j _ hj
    have hlt : j < s.clientSize := h.lt_of_slot (by rw [hj]; exact hpos)
    exact h.slot_inj hlt hin (by rw [hj, hslot])
  · unfold updateFdSet
    rw [h.take_clientSock]
    refine mem_cons_of_mem _ (mem_filter.mpr ⟨mem_map_of_mem hc, ?_⟩)
    have hne : (s.clients[i]).fd ≠ invalidFd := by
      unfold invalidFd
      omega
    simpa using hne
  · unfold sendDataTo
    rw [h.take_clientSock]
    exact mem_map_of_mem (mem_filter.mpr ⟨hc, by simpa using hpos⟩)

end Compact

/-! ## A client connects -/

variable {s : Server} {i : ℕ} {ready : List ℤ} {reads : ℤ → Read} {r : Round}

/-- The first free slot is the one behind the clients. -/
theorem Compact.findIdx (h : s.Compact) :
    s.clientSock.findIdx? (·.fd = invalidFd) =
      if s.clients.length < maxClientConn then some s.clients.length else none := by
  have hnone : s.clients.findIdx? (·.fd = invalidFd) = none := by
    rw [findIdx?_eq_none_iff]
    intro c hc
    have := h.positive c hc
    unfold invalidFd
    simp only [decide_eq_false_iff_not]
    omega
  rw [h.table, findIdx?_append, hnone]
  rcases Nat.lt_or_ge s.clients.length maxClientConn with hlt | hge
  · obtain ⟨k, hk⟩ : ∃ k, maxClientConn - s.clients.length = k + 1 :=
      ⟨_, (Nat.succ_pred_eq_of_pos (Nat.sub_pos_of_lt hlt)).symm⟩
    rw [if_pos hlt, hk, replicate_succ, findIdx?_cons]
    simp [freeSlot]
  · rw [if_neg (by omega), Nat.sub_eq_zero_of_le hge]
    simp

theorem Compact.addClient (h : s.Compact) {conn : ℤ} (hpos : 0 < conn) :
    s.addClient conn = if s.clients.length < maxClientConn then
      some { s with clientSock := s.clientSock.set s.clients.length { freeSlot with fd := conn }
                    clientSize := s.clientSize + 1 } else none := by
  unfold Server.addClient
  rw [if_pos hpos, h.findIdx]
  split
  · rw [Option.bind_eq_bind, Option.bind_some, h.slot, getD_eq_default _ _ (Nat.le_refl _)]
  · rfl

/-- **A connect keeps the table compact**, whether the client finds a slot
or not. -/
theorem Compact.acceptConnection (h : s.Compact) {conn : ℤ}
    (hp : conn = invalidFd ∨ (0 ≤ conn ∧ conn ∉ s.openFds)) :
    (s.acceptConnection conn).Compact ∧ (s.Tidy → (s.acceptConnection conn).Tidy) ∧
      (s.acceptConnection conn).serverSock = s.serverSock := by
  have hinv : invalidFd ∉ s.openFds := by
    intro hc
    exact absurd (h.valid _ hc) (by decide)
  unfold Server.acceptConnection
  rcases hp with rfl | ⟨hnn, hfresh⟩
  · -- `accept` has failed
    rw [if_pos rfl, Server.close, if_neg hinv, if_pos rfl]
    exact ⟨h, id, rfl⟩
  · rw [if_neg (by unfold invalidFd; omega)]
    have hback : (s.openFds ++ [conn]).erase conn = s.openFds := by
      rw [erase_append_right _ hfresh, erase_cons_head, append_nil]
    -- the refused descriptor is closed again
    have hrefused : ({ s with openFds := s.openFds ++ [conn] } : Server).close conn = s := by
      rw [Server.close, if_pos (by simp)]
      simp only [hback]
    have h' : ({ s with openFds := s.openFds ++ [conn] } : Server).addClient conn =
        if 0 < conn ∧ s.clients.length < maxClientConn then
          some { s with
            clientSock := s.clientSock.set s.clients.length { freeSlot with fd := conn }
            clientSize := s.clientSize + 1
            openFds := s.openFds ++ [conn] } else none := by
      rcases Int.lt_or_le 0 conn with hpos | hneg
      · have hc : ({ s with openFds := s.openFds ++ [conn] } : Server).Compact :=
          { h with
            live := fun c hc => mem_append_left _ (h.live c hc)
            valid := by
              intro fd hfd
              rcases mem_append.mp hfd with hfd | hfd
              · exact h.valid fd hfd
              · rw [mem_singleton.mp hfd]
                exact hnn }
        rw [hc.addClient hpos]
        simp [hpos]
      · rw [Server.addClient, if_neg (by omega), if_neg (by omega)]
    simp only [h']
    by_cases hroom : 0 < conn ∧ s.clients.length < maxClientConn
    · rw [if_pos hroom]
      obtain ⟨hpos, hlt⟩ := hroom
      refine ⟨?_, ?_, rfl⟩
      · exact {
          table := by
            obtain ⟨k, hk⟩ : ∃ k, maxClientConn - s.clients.length = k + 1 :=
              ⟨_, (Nat.succ_pred_eq_of_pos (Nat.sub_pos_of_lt hlt)).symm⟩
            have hk' : maxClientConn - (s.clients.length + 1) = k := by omega
            simp [h.table, hk, hk', replicate_succ]
          size := by simp [h.size]
          room := by
            rw [length_append]
            exact hlt
          positive := by
            intro c hc
            rcases mem_append.mp hc with hc | hc
            · exact h.positive c hc
            · rw [mem_singleton.mp hc]
              exact hpos
          nodup := by
            rw [map_append]
            refine nodup_append.mpr ⟨h.nodup, nodup_singleton conn, ?_⟩
            rintro _ ha _ hb rfl
            obtain ⟨c, hc, rfl⟩ := mem_map.mp ha
            have hb' : c.fd = conn := mem_singleton.mp hb
            exact hfresh (hb' ▸ h.live c hc)
          live := by
            intro c hc
            rcases mem_append.mp hc with hc | hc
            · exact mem_append_left _ (h.live c hc)
            · rw [mem_singleton.mp hc]
              exact mem_append_right _ (mem_singleton_self _)
          valid := by
            intro fd hfd
            rcases mem_append.mp hfd with hfd | hfd
            · exact h.valid fd hfd
            · rw [mem_singleton.mp hfd]
              exact hnn }
      · rintro ⟨hperm, hstray⟩
        refine ⟨?_, hstray⟩
        show (s.openFds ++ [conn]).Perm (s.serverSock :: (s.clients ++ _).map (·.fd))
        rw [map_append, ← cons_append]
        exact hperm.append_right _
    · rw [if_neg hroom]
      simp only [hrefused]
      exact ⟨h, id, trivial⟩

/-! ## A client is read from -/

/-- What a step of the scan keeps, the scan keeps. -/
theorem scanFrom_keeps {P : Server → Prop} (ready : List ℤ) (reads : ℤ → Read)
    (hstep : ∀ s i, P s → i < s.clientSize → (s.slot i).fd ∈ ready →
      P (s.processSocketData i (reads (s.slot i).fd)))
    (n i : ℕ) (hs : P s) : P (scanFrom ready reads n i s) := by
  induction n generalizing i s with
  | zero => exact hs
  | succ n ih =>
    rw [scanFrom]
    split_ifs with hi hr
    · exact ih _ (hstep s i hs hi hr)
    · exact ih _ hs
    · exact hs

/-- A registration is one of the client in the slot. -/
theorem Compact.map_setType (h : s.Compact) (hi : i < s.clientSize) (data : List BYTE) :
    (s.clients.map fun c => if c.fd = (s.slot i).fd then setClientSockType c data else c) =
      s.clients.set i (setClientSockType (s.slot i) data) := by
  refine ext_getElem (by simp) ?_
  intro j hj hj'
  have hj'' : j < s.clients.length := by simpa using hj
  have hslot (k : ℕ) (hk : k < s.clients.length) : s.slot k = s.clients[k] := by
    rw [h.slot, getD_eq_getElem _ _ hk]
  rw [getElem_map, getElem_set, ← hslot j hj'']
  by_cases hij : i = j
  · rw [if_pos (by rw [hij]), if_pos hij, hij]
  · rw [if_neg hij, if_neg]
    intro he
    exact hij (h.slot_inj (by rw [h.size]; exact hj'') hi he).symm

theorem map_setType_fd (s : Server) (fd : ℤ) (data : List BYTE) :
    (s.clients.map fun c => if c.fd = fd then setClientSockType c data else c).map (·.fd) =
      s.clients.map (·.fd) := by
  rw [map_map]
  refine map_congr_left fun c _ => ?_
  show (if c.fd = fd then setClientSockType c data else c).fd = c.fd
  split
  · rw [setClientSockType_fd]
  · rfl

/-- The same descriptors, in the same places. -/
structure SameFds (s s' : Server) : Prop where
  serverSock : s'.serverSock = s.serverSock
  clientSize : s'.clientSize = s.clientSize
  slot : ∀ i, (s'.slot i).fd = (s.slot i).fd
  openFds : s'.openFds = s.openFds
  strayCloses : s'.strayCloses = s.strayCloses
  clients : s'.clients.map (·.fd) = s.clients.map (·.fd)

/-- A registration changes no descriptor. -/
theorem sameFds_setType (s : Server) (i : ℕ) (data : List BYTE) :
    SameFds s (s.setType i data) where
  serverSock := rfl
  clientSize := rfl
  slot := by
    intro j
    unfold setType Server.slot
    by_cases hj : j < s.clientSock.length
    · rw [getD_eq_getElem _ _ (by simpa using hj), getD_eq_getElem _ _ hj]
      by_cases hij : i = j
      · subst hij
        rw [getElem_set_self, setClientSockType_fd, getD_eq_getElem _ _ hj]
      · rw [getElem_set_ne hij]
    · rw [getD_eq_default _ _ (by simpa using hj), getD_eq_default _ _ (by omega)]
  openFds := rfl
  strayCloses := rfl
  clients := s.map_setType_fd _ data

theorem sameFds_data (s : Server) (i : ℕ) (bytes : List BYTE) :
    SameFds s (s.processSocketData i (.data bytes)) := by
  unfold processSocketData
  dsimp only
  split_ifs
  · exact ⟨rfl, rfl, fun _ => rfl, rfl, rfl, rfl⟩
  · exact s.sameFds_setType i bytes
  · exact ⟨rfl, rfl, fun _ => rfl, rfl, rfl, rfl⟩

theorem Compact.setType (h : s.Compact) (hi : i < s.clientSize) (data : List BYTE) :
    (s.setType i data).Compact := by
  have hi' : i < s.clients.length := by rw [← h.size]; exact hi
  have hfd (c : ClientSock) (hc : c ∈ (s.setType i data).clients) :
      ∃ c' ∈ s.clients, c.fd = c'.fd := by
    have hm : c.fd ∈ (s.setType i data).clients.map (·.fd) := mem_map_of_mem hc
    rw [(s.sameFds_setType i data).clients] at hm
    obtain ⟨c', hc', he⟩ := mem_map.mp hm
    exact ⟨c', hc', he.symm⟩
  have hlen : (s.setType i data).clients.length = s.clients.length := length_map _
  exact {
    table := by
      show s.clientSock.set i _ = (s.clients.map _) ++ _
      rw [hlen, h.map_setType hi data, h.table, set_append_left _ _ hi']
    size := by
      rw [hlen]
      exact h.size
    room := by
      rw [hlen]
      exact h.room
    positive := by
      intro c hc
      obtain ⟨c', hc', he⟩ := hfd c hc
      rw [he]
      exact h.positive c' hc'
    nodup := by
      rw [(s.sameFds_setType i data).clients]
      exact h.nodup
    live := by
      intro c hc
      obtain ⟨c', hc', he⟩ := hfd c hc
      rw [he]
      exact h.live c' hc'
    valid := h.valid }

theorem Compact.data (h : s.Compact) (hi : i < s.clientSize) (bytes : List BYTE) :
    (s.processSocketData i (.data bytes)).Compact := by
  unfold processSocketData
  dsimp only
  split_ifs
  · exact h
  · exact h.setType hi bytes
  · exact { h with }

/-! ## A client disconnects -/

/-- **The descriptor of a client that leaves stays open**: what is closed
is the emptied slot's. -/
theorem openFds_disconnect (hslot : (s.slot i).fd = invalidFd ∨ 0 < (s.slot i).fd)
    (hlen : i < s.clientSock.length) (hvalid : invalidFd ∉ s.openFds) :
    s.processSocketData i .disconnect = if (s.slot i).fd = invalidFd then s else
      { s with
        currentType := typeNormal
        clientSock := s.clientSock.set i freeSlot
        clientSize := s.clientSize - 1
        clients := s.clients.filter (·.fd ≠ (s.slot i).fd) } := by
  unfold processSocketData
  dsimp only
  rcases hslot with hfree | hpos
  · rw [if_pos hfree, if_pos hfree]
  · have hne : (s.slot i).fd ≠ invalidFd := by
      unfold invalidFd
      omega
    have hempty : ((s.clientSock.set i freeSlot).getD i freeSlot).fd = invalidFd := by
      rw [getD_eq_getElem _ _ (by simpa using hlen), getElem_set_self]
      rfl
    rw [if_neg hne, if_neg hne, removeClient, if_pos hpos]
    show Server.close _ ((s.clientSock.set i freeSlot).getD i freeSlot).fd = _
    rw [hempty, Server.close, if_neg hvalid, if_pos rfl]

/-- The last client leaves: the table stays compact. -/
theorem Compact.disconnect_last (h : s.Compact) (hi : i + 1 = s.clientSize) :
    (s.processSocketData i .disconnect).Compact ∧
      (s.processSocketData i .disconnect).clientSize = i ∧
      (s.processSocketData i .disconnect).serverSock = s.serverSock ∧
      ∀ j < i, ((s.processSocketData i .disconnect).slot j) = s.slot j := by
  have hil : i < s.clientSize := by omega
  have hpos := h.positive _ (h.slot_mem hil)
  have hne : (s.slot i).fd ≠ invalidFd := by
    unfold invalidFd
    omega
  have hlen : i < s.clientSock.length := by
    have := h.room
    rw [h.length]
    rw [h.size] at hil
    omega
  have hinv : invalidFd ∉ s.openFds := fun hc => absurd (h.valid _ hc) (by decide)
  rw [openFds_disconnect (Or.inr hpos) hlen hinv, if_neg hne]
  have hk : s.clients.length = i + 1 := by rw [← h.size, hi]
  -- the clients are those before the last, and the last
  obtain ⟨front, c, hfc⟩ : ∃ front c, s.clients = front ++ [c] :=
    ⟨_, _, (dropLast_append_getLast (ne_nil_of_length_eq_add_one hk)).symm⟩
  have hfl : front.length = i := by
    have := congrArg List.length hfc
    rw [length_append, hk] at this
    simpa using this.symm
  have hslot : s.slot i = c := by
    rw [h.slot, hfc, getD_append_right _ _ _ _ (by omega), hfl, Nat.sub_self]
    rfl
  have hnd := h.nodup
  rw [hfc, map_append] at hnd
  have hfilter : s.clients.filter (·.fd ≠ (s.slot i).fd) = front := by
    rw [hfc, hslot, filter_append]
    have h1 : front.filter (·.fd ≠ c.fd) = front := by
      rw [filter_eq_self]
      intro c' hc'
      have := (nodup_append.mp hnd).2.2 c'.fd (mem_map_of_mem hc') c.fd (by simp)
      simpa using this
    have h2 : [c].filter (·.fd ≠ c.fd) = [] := by simp
    rw [h1, h2, append_nil]
  have htable : s.clientSock.set i freeSlot =
      front ++ List.replicate (maxClientConn - front.length) freeSlot := by
    have hroom := h.room
    have hrep : maxClientConn - front.length = (maxClientConn - s.clients.length) + 1 := by omega
    rw [h.table, hrep, replicate_succ]
    rw [hfc, append_assoc, set_append_right _ _ (by omega), hfl, Nat.sub_self]
    rfl
  have hsub : ∀ c' ∈ front, c' ∈ s.clients := fun c' hc' => by
    rw [hfc]
    exact mem_append_left _ hc'
  have hcompact : Compact { s with
      currentType := typeNormal
      clientSock := s.clientSock.set i freeSlot
      clientSize := s.clientSize - 1
      clients := s.clients.filter (·.fd ≠ (s.slot i).fd) } :=
    { table := by simp only [hfilter, htable]
      size := by simp only [hfilter]; omega
      room := by
        have := h.room
        simp only [hfilter]
        omega
      positive := by
        simp only [hfilter]
        exact fun c' hc' => h.positive c' (hsub c' hc')
      nodup := by
        simp only [hfilter]
        exact (nodup_append.mp hnd).1
      live := by
        simp only [hfilter]
        exact fun c' hc' => h.live c' (hsub c' hc')
      valid := h.valid }
  refine ⟨hcompact, by simp only; omega, rfl, ?_⟩
  intro j hj
  rw [hcompact.slot]
  dsimp only
  rw [hfilter, h.slot j, hfc, getD_append _ _ _ _ (by omega)]

/-- **While none but the last client leaves, the table stays compact.** -/
theorem Compact.scan (h : s.Compact)
    (hlast : ∀ i < s.clientSize, (s.slot i).fd ∈ ready → reads (s.slot i).fd = .disconnect →
      i + 1 = s.clientSize)
    (n i : ℕ) :
    (scanFrom ready reads n i s).Compact ∧
      (scanFrom ready reads n i s).serverSock = s.serverSock := by
  have hkeeps := scanFrom_keeps ready reads
    (P := fun s' => (s'.Compact ∧ s'.serverSock = s.serverSock) ∧ ∀ i < s'.clientSize,
      (s'.slot i).fd ∈ ready → reads (s'.slot i).fd = .disconnect → i + 1 = s'.clientSize)
    ?_ n i ⟨⟨h, rfl⟩, hlast⟩
  · exact hkeeps.1
  · rintro s' j ⟨⟨h', hsock⟩, hlast'⟩ hj hready
    cases hread : reads (s'.slot j).fd with
    | disconnect =>
      have hj' := hlast' j hj hready hread
      obtain ⟨hc, hsize, hs, hslot⟩ := h'.disconnect_last hj'
      refine ⟨⟨hc, hs.trans hsock⟩, ?_⟩
      -- the clients left stand before it, and none of them leaves
      intro k hk hkr hkd
      rw [hsize] at hk
      rw [hslot k hk] at hkr hkd
      have := hlast' k (by omega) hkr hkd
      omega
    | data bytes =>
      have hsame := s'.sameFds_data j bytes
      refine ⟨⟨h'.data hj bytes, hsame.serverSock.trans hsock⟩, ?_⟩
      intro k hk hkr hkd
      rw [hsame.clientSize] at hk ⊢
      rw [hsame.slot] at hkr hkd
      exact hlast' k hk hkr hkd

/-- While no client leaves, no descriptor is opened or closed. -/
theorem Tidy.scan (h : s.Tidy) (hnone : ∀ fd ∈ ready, reads fd ≠ .disconnect) (n i : ℕ) :
    (scanFrom ready reads n i s).Tidy := by
  refine scanFrom_keeps ready reads ?_ n i h
  intro s' j h' hj hready
  cases hread : reads (s'.slot j).fd with
  | disconnect => exact absurd hread (hnone _ hready)
  | data bytes =>
    have hsame := s'.sameFds_data j bytes
    unfold Tidy
    rw [hsame.openFds, hsame.serverSock, hsame.clients, hsame.strayCloses]
    exact h'

/-! ## A descriptor is lost -/

/-- A descriptor is open that is neither the server's nor a client's. -/
structure Leak (s : Server) (fd : ℤ) : Prop where
  slots : ∀ i, (s.slot i).fd = invalidFd ∨ 0 < (s.slot i).fd
  bounded : s.clientSize ≤ s.clientSock.length
  valid : invalidFd ∉ s.openFds
  opened : fd ∈ s.openFds
  foreign : fd ≠ s.serverSock
  gone : fd ∉ s.clients.map (·.fd)

theorem Leak.not_tidy {fd : ℤ} (h : s.Leak fd) : ¬ s.Tidy := by
  rintro ⟨hperm, -⟩
  rcases mem_cons.mp (hperm.mem_iff.mp h.opened) with he | hm
  · exact h.foreign he
  · exact h.gone hm

theorem length_processSocketData (s : Server) (i : ℕ) (read : Read) :
    (s.processSocketData i read).clientSock.length = s.clientSock.length := by
  unfold processSocketData
  dsimp only
  split_ifs
  · rfl
  · cases read with
    | disconnect =>
      have hclose (s : Server) (fd : ℤ) : (s.close fd).clientSock = s.clientSock := by
        unfold Server.close
        split_ifs <;> rfl
      have hremove : (s.removeClient i).clientSock.length = s.clientSock.length := by
        unfold removeClient
        split_ifs
        · exact length_set
        · rfl
      rw [hclose]
      exact hremove
    | data bytes =>
      dsimp only
      split_ifs
      · exact length_set
      · rfl

theorem slot_set_free (s : Server) (i j : ℕ) :
    ((s.clientSock.set i freeSlot).getD j freeSlot) = if i = j then freeSlot else s.slot j := by
  unfold Server.slot
  by_cases hj : j < s.clientSock.length
  · rw [getD_eq_getElem _ _ (by simpa using hj), getD_eq_getElem _ _ hj, getElem_set]
  · rw [getD_eq_default _ _ (by simpa using hj), getD_eq_default _ _ (by omega), ite_self]

/-- **A lost descriptor stays lost** in the rest of the scan. -/
theorem Leak.processSocketData {fd : ℤ} (h : s.Leak fd) (hi : i < s.clientSize) (read : Read) :
    (s.processSocketData i read).Leak fd := by
  have hlen := s.length_processSocketData i read
  cases read with
  | disconnect =>
    have hil : i < s.clientSock.length := by
      have := h.bounded
      omega
    rw [openFds_disconnect (h.slots i) hil h.valid] at hlen ⊢
    split_ifs
    · exact h
    · refine ⟨?_, ?_, h.valid, h.opened, h.foreign, ?_⟩
      · intro j
        show ((s.clientSock.set i freeSlot).getD j freeSlot).fd = _ ∨
          _ < ((s.clientSock.set i freeSlot).getD j freeSlot).fd
        rw [slot_set_free]
        split_ifs
        · exact Or.inl rfl
        · exact h.slots j
      · have := h.bounded
        simp only [length_set]
        omega
      · intro hm
        obtain ⟨c, hc, he⟩ := mem_map.mp hm
        exact h.gone (he ▸ mem_map_of_mem (mem_filter.mp hc).1)
  | data bytes =>
    have hsame := s.sameFds_data i bytes
    refine ⟨?_, ?_, ?_, ?_, ?_, ?_⟩
    · intro j
      rw [hsame.slot]
      exact h.slots j
    · rw [hlen, hsame.clientSize]
      exact h.bounded
    · rw [hsame.openFds]
      exact h.valid
    · rw [hsame.openFds]
      exact h.opened
    · rw [hsame.serverSock]
      exact h.foreign
    · rw [hsame.clients]
      exact h.gone

/-- A client that leaves loses its descriptor. -/
theorem Compact.leak_disconnect (h : s.Compact) (hi : i < s.clientSize)
    (hne : (s.slot i).fd ≠ s.serverSock) :
    (s.processSocketData i .disconnect).Leak (s.slot i).fd := by
  have hpos := h.positive _ (h.slot_mem hi)
  have hinv : invalidFd ∉ s.openFds := fun hc => absurd (h.valid _ hc) (by decide)
  have hbound : s.clientSize ≤ s.clientSock.length := by
    rw [h.length, h.size]
    exact h.room
  have hfree : (s.slot i).fd ≠ invalidFd := by
    unfold invalidFd
    omega
  have hslots (j : ℕ) : (s.slot j).fd = invalidFd ∨ 0 < (s.slot j).fd := by
    by_cases hj : j < s.clientSize
    · exact Or.inr (h.positive _ (h.slot_mem hj))
    · rw [h.slot, getD_eq_default _ _ (by rw [← h.size]; omega)]
      exact Or.inl rfl
  rw [openFds_disconnect (Or.inr hpos) (by omega) hinv, if_neg hfree]
  refine ⟨?_, ?_, hinv, h.live _ (h.slot_mem hi), hne, ?_⟩
  · intro j
    show ((s.clientSock.set i freeSlot).getD j freeSlot).fd = _ ∨
      _ < ((s.clientSock.set i freeSlot).getD j freeSlot).fd
    rw [slot_set_free]
    split_ifs
    · exact Or.inl rfl
    · exact hslots j
  · simp only [length_set]
    omega
  · intro hm
    obtain ⟨c, hc, he⟩ := mem_map.mp hm
    have := (mem_filter.mp hc).2
    simp [he] at this

/-- **The first client of a scan that leaves loses its descriptor.** -/
theorem Compact.leak_scan (h : s.Compact) (hready : ∀ fd ∈ ready, fd ≠ s.serverSock) (n i : ℕ)
    (hn : s.clientSize ≤ n + i) {j : ℕ} (hij : i ≤ j) (hj : j < s.clientSize)
    (hjr : (s.slot j).fd ∈ ready) (hjd : reads (s.slot j).fd = .disconnect) :
    ∃ fd, (scanFrom ready reads n i s).Leak fd := by
  induction n generalizing i s with
  | zero => omega
  | succ n ih =>
    rw [scanFrom, if_pos (by omega)]
    by_cases hr : (s.slot i).fd ∈ ready
    · rw [if_pos hr]
      cases hread : reads (s.slot i).fd with
      | disconnect =>
        have hleak := h.leak_disconnect (i := i) (by omega) (hready _ hr)
        exact ⟨_, scanFrom_keeps (P := (Leak · (s.slot i).fd)) ready reads
          (fun s' k hs' hk _ => hs'.processSocketData hk _) n (i + 1) hleak⟩
      | data bytes =>
        have hsame := s.sameFds_data i bytes
        have hne : i ≠ j := by
          rintro rfl
          rw [hread] at hjd
          cases hjd
        refine ih (h.data (by omega) bytes) ?_ (i + 1) ?_ (by omega) ?_ ?_ ?_
        · rw [hsame.serverSock]
          exact hready
        · rw [hsame.clientSize]
          omega
        · rw [hsame.clientSize]
          exact hj
        · rw [hsame.slot]
          exact hjr
        · rw [hsame.slot]
          exact hjd
    · rw [if_neg hr]
      have hne : i ≠ j := by
        rintro rfl
        exact hr hjr
      exact ih h hready (i + 1) (by omega) (by omega) hj hjr hjd

/-! ## Runs -/

/-- **A turn keeps the table compact** in which none but the last client
leaves. -/
theorem Compact.round (h : s.Compact) (hp : s.Possible r) (hlast : LastLeaves s r) :
    (s.round r).Compact := by
  cases r with
  | accept conn => exact (h.acceptConnection hp).1
  | scan ready reads => exact (h.scan hlast _ 0).1

theorem Tidy.round (h : s.Tidy) (hc : s.Compact) (hp : s.Possible r) (hnone : NoneLeaves r) :
    (s.round r).Tidy := by
  cases r with
  | accept conn => exact (hc.acceptConnection hp).2.1 h
  | scan ready reads => exact h.scan hnone _ 0

theorem lastLeaves_of_noneLeaves (h : NoneLeaves r) :
    LastLeaves s r := by
  cases r with
  | accept conn => trivial
  | scan ready reads =>
    intro i _ hr hd
    exact absurd hd (h _ hr)

/-- **A turn in which a client leaves is not tidy.** -/
theorem Compact.not_tidy_round (h : s.Compact) (hp : s.Possible r) (hleaves : ¬ NoneLeaves r) :
    ¬ (s.round r).Tidy := by
  cases r with
  | accept conn => exact absurd trivial hleaves
  | scan ready reads =>
    have hex : ∃ fd ∈ ready, reads fd = .disconnect := by
      simpa [NoneLeaves] using hleaves
    obtain ⟨fd, hfd, hread⟩ := hex
    obtain ⟨hset, hne⟩ := hp fd hfd
    -- the set holds the clients' descriptors
    have hmem : fd ∈ s.clients.map (·.fd) := by
      unfold updateFdSet at hset
      rw [h.take_clientSock] at hset
      rcases mem_cons.mp hset with he | hm
      · exact absurd he hne
      · exact (mem_filter.mp hm).1
    obtain ⟨c, hc, rfl⟩ := mem_map.mp hmem
    obtain ⟨j, hj, hslot, -⟩ := h.served c hc
    rw [← hslot] at hfd hread
    have hbound : s.clientSize ≤ s.clientSock.length + 0 := by
      rw [h.length, h.size]
      exact h.room
    obtain ⟨fd', hleak⟩ := h.leak_scan (fun fd hfd => (hp fd hfd).2) s.clientSock.length 0 hbound
      (Nat.zero_le j) hj hfd hread
    exact hleak.not_tidy

end Server

open Vcd.Server Run

/-- **A run from a compact table serves every client and closes every
descriptor exactly when no client leaves.** -/
theorem always_served_tidy_iff {s : Server} (hc : s.Compact) (ht : s.Tidy) {rounds : List Round}
    (hp : Throughout round Possible s rounds) :
    Always round (fun s => s.Served ∧ s.Tidy) s rounds ↔ ∀ r ∈ rounds, NoneLeaves r := by
  induction rounds generalizing s with
  | nil =>
    constructor
    · intro _ r hr
      exact absurd hr not_mem_nil
    · intro _
      exact ⟨hc.served, ht⟩
  | cons r rounds ih =>
    obtain ⟨hpr, hprs⟩ := hp
    constructor
    · rintro ⟨-, hrest⟩
      have hnone : NoneLeaves r := by
        by_contra hn
        exact hc.not_tidy_round hpr hn hrest.head.2
      have hc' := hc.round hpr (lastLeaves_of_noneLeaves hnone)
      have ht' := ht.round hc hpr hnone
      intro r' hr'
      rcases mem_cons.mp hr' with rfl | hr'
      · exact hnone
      · exact (ih hc' ht' hprs).mp hrest r' hr'
    · intro hall
      have hnone := hall r mem_cons_self
      have hc' := hc.round hpr (lastLeaves_of_noneLeaves hnone)
      have ht' := ht.round hc hpr hnone
      refine ⟨⟨hc.served, ht⟩, (ih hc' ht' hprs).mpr ?_⟩
      exact fun r' hr' => hall r' (mem_cons_of_mem _ hr')

/-- **Which runs serve every client.** A run serves every client and
closes every descriptor it should exactly when no client leaves in it;
and it serves every client, if none leaves but from the last slot. -/
theorem serves_iff {serverSock : ℤ} (hsock : 0 ≤ serverSock) {rounds : List Round}
    (hp : Throughout round Possible (start serverSock) rounds) :
    (Always round (fun s => s.Served ∧ s.Tidy) (start serverSock) rounds ↔
      ∀ r ∈ rounds, NoneLeaves r) ∧
    (Throughout round LastLeaves (start serverSock) rounds →
      Always round Served (start serverSock) rounds) := by
  constructor
  · exact always_served_tidy_iff (compact_start hsock) ⟨List.Perm.refl _, rfl⟩ hp
  · intro hlast
    have hcompact : Always round Compact (start serverSock) rounds :=
      Always.of_invariant (fun s r hs hr => hs.round hr.1 hr.2) (compact_start hsock) (hp.and hlast)
    exact hcompact.mono fun s hs => hs.served

/-- Two clients connect, and the second one leaves. -/
def secondLeaves : List Round :=
  [.accept 4, .accept 5, .scan [5] fun _ => .disconnect]

theorem serves_secondLeaves :
    Throughout round Possible (start 3) secondLeaves ∧
      Throughout round LastLeaves (start 3) secondLeaves ∧
      Always round Served (start 3) secondLeaves ∧
      ¬ Always round (fun s => s.Served ∧ s.Tidy) (start 3) secondLeaves := by
  have hp : Throughout round Possible (start 3) secondLeaves := by
    refine ⟨?_, ?_, ?_, trivial⟩
    · exact Or.inr (by decide)
    · exact Or.inr (by decide)
    · intro fd hfd
      rw [mem_singleton.mp hfd]
      decide
  have hlast : Throughout round LastLeaves (start 3) secondLeaves := by
    refine ⟨trivial, trivial, ?_, trivial⟩
    intro i hi hr _
    have hi' : i < 2 := hi
    interval_cases i
    · exact absurd hr (by decide)
    · rfl
  refine ⟨hp, hlast, (serves_iff (by decide) hp).2 hlast, ?_⟩
  rw [(serves_iff (by decide) hp).1]
  intro hall
  exact hall _ (mem_cons_of_mem _ (mem_cons_of_mem _ mem_cons_self)) 5 (by decide) rfl

/-- Two clients connect, and the first one leaves. -/
def firstLeaves : List Round :=
  [.accept 4, .accept 5, .scan [4] fun _ => .disconnect]

/-- **The second client is served no longer**, and the first one's
descriptor is still open. -/
theorem not_serves_firstLeaves :
    Throughout round Possible (start 3) firstLeaves ∧
      ¬ Always round Served (start 3) firstLeaves ∧ ¬ Always round Tidy (start 3) firstLeaves := by
  refine ⟨⟨?_, ?_, ?_, trivial⟩, ?_, ?_⟩
  · exact Or.inr (by decide)
  · exact Or.inr (by decide)
  · intro fd hfd
    rw [mem_singleton.mp hfd]
    decide
  · intro h
    obtain ⟨i, hi, hfd, -⟩ := h.2.2.2.head { freeSlot with fd := 5 } (by decide)
    have hi' : i < 1 := hi
    interval_cases i
    exact absurd hfd (by decide)
  · intro h
    exact absurd h.2.2.2.1 (by decide)

end ExynosVendor.Vcd
