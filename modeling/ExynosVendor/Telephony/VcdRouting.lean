import ExynosVendor.Telephony.Vcd

/-!
# Where the modem's responses go

`g_current_type` of `vcd/vcd_socket.cpp` is set by a client that registers
as an app, and reset by any client that leaves. `run_modem_monitor` of
`vcd/vcd.cpp` sends the modem's responses to the app sockets or to USB by
it alone. `routed_iff` says in which runs it follows the clients.
-/

namespace ExynosVendor.Vcd

open Ril (BYTE)
open List

def maxBufSize : ℕ := 2048

def maxBuf : ℕ := 65536

/-- Where a response goes. -/
inductive Destination where
  | usb
  | apps (fds : List ℤ)
  deriving DecidableEq

/-- What happens at the server's sockets, or a response of the modem is
read. -/
inductive Event where
  | connect (conn : ℤ)
  | socket (index : ℕ) (read : Read)
  | response (data : List BYTE)

namespace Server

/-- `SendDataToConnectivity`, by the descriptors it writes to. -/
def sendDataToConnectivity (s : Server) (data : List BYTE) (id : ℤ) : List ℤ :=
  if data = [] ∨ data.head? = some 0 then []
  else if data.length ≥ maxBufSize then []
  else if s.serverSock = invalidFd then []
  else s.sendDataTo id

/-- The end of `run_modem_monitor`. -/
def modemResponse (s : Server) (data : List BYTE) : Destination :=
  if s.currentType = 0 then .usb else .apps (s.sendDataToConnectivity data idApp)

/-- The step. -/
def event (s : Server) : Event → Server
  | .connect conn => s.acceptConnection conn
  | .socket index read => s.processSocketData index read
  | .response _ => s

/-- What can happen: a new descriptor is none that is open, a client is
read from in a slot that is looked at, and a response is some bytes. -/
def Occurs (s : Server) : Event → Prop
  | .connect conn => s.Possible (.accept conn)
  | .socket index _ => index < s.clientSize
  | .response data => data ≠ [] ∧ data.length < maxBuf

/-! ## A turn of the thread -/

/-- What happens in the loop over the slots. -/
def scanEvents (ready : List ℤ) (reads : ℤ → Read) : ℕ → ℕ → Server → List Event
  | 0, _, _ => []
  | n + 1, i, s =>
      if i < s.clientSize then
        if (s.slot i).fd ∈ ready then
          .socket i (reads (s.slot i).fd) ::
            scanEvents ready reads n (i + 1) (s.processSocketData i (reads (s.slot i).fd))
        else scanEvents ready reads n (i + 1) s
      else []

/-- What happens in a turn. -/
def roundEvents (s : Server) : Round → List Event
  | .accept conn => [.connect conn]
  | .scan ready reads => scanEvents ready reads s.clientSock.length 0 s

theorem scanEvents_spec (ready : List ℤ) (reads : ℤ → Read) (n i : ℕ) (s : Server) :
    (scanEvents ready reads n i s).foldl event s = scanFrom ready reads n i s ∧
      Run.Throughout event Occurs s (scanEvents ready reads n i s) := by
  induction n generalizing i s with
  | zero => exact ⟨rfl, trivial⟩
  | succ n ih =>
    unfold scanEvents scanFrom
    split_ifs with hi hready
    · exact ⟨(ih _ _).1, hi, (ih _ _).2⟩
    · exact ih _ _
    · exact ⟨rfl, trivial⟩

/-- **A turn of the thread is a run of events** that can happen. -/
theorem foldl_roundEvents {s : Server} {r : Round} (h : s.Possible r) :
    (s.roundEvents r).foldl event s = s.round r ∧
      Run.Throughout event Occurs s (s.roundEvents r) := by
  cases r with
  | accept conn => exact ⟨rfl, h, trivial⟩
  | scan ready reads => exact scanEvents_spec ready reads _ _ s

/-! ## What is to hold -/

/-- The clients that are registered as an app. -/
def apps (s : Server) : List ClientSock := s.clients.filter (·.type = typeApp)

/-- **Of every state**: the mode is that of the registered clients. -/
def Routed (s : Server) : Prop := s.currentType = typeApp ↔ ∃ c ∈ s.clients, c.type = typeApp

/-- **Of every response**: it goes to the apps' sockets while there is one,
and to USB otherwise. -/
def Forwards (s : Server) : Event → Prop
  | .response data =>
      if s.apps = [] then s.modemResponse data = .usb
      else ∃ fds, s.modemResponse data = .apps fds ∧ fds.Perm (s.apps.map (·.fd))
  | _ => True

/-! ## The condition -/

/-- What data registers its client as. -/
def registered (data : List BYTE) : Option (ℤ × ℤ) :=
  if startsWith data "\r\n+VTYPE:" then
    if startsWith data "\r\n+VTYPE:1,nv" then some (typeNormal, idNv)
    else if startsWith data "\r\n+VTYPE:1,ims" then some (typeNormal, idIms)
    else if startsWith data "\r\n+VTYPE:2,app" then some (typeApp, idApp)
    else none
  else none

/-- Another client than the one in a slot is an app. -/
def OtherApp (s : Server) (index : ℕ) : Prop :=
  ∃ c ∈ s.clients, c.fd ≠ (s.slot index).fd ∧ c.type = typeApp

instance (s : Server) (index : ℕ) : Decidable (s.OtherApp index) :=
  inferInstanceAs (Decidable (∃ c ∈ s.clients, c.fd ≠ (s.slot index).fd ∧ c.type = typeApp))

/-- **The condition.** No client leaves while another one is an app; an
app that registers as something else is not the only one; and what is sent
to the apps is shorter than a buffer and does not begin with a zero. -/
def Follows (s : Server) : Event → Prop
  | .connect _ => True
  | .socket index read =>
      (s.slot index).fd ≠ invalidFd →
        match read with
        | .disconnect => ¬ s.OtherApp index
        | .data bytes => (registered bytes).map Prod.fst = some typeNormal →
            (s.slot index).type = typeApp → s.OtherApp index
  | .response data => s.apps ≠ [] → data.head? ≠ some 0 ∧ data.length < maxBufSize

instance (s : Server) : (e : Event) → Decidable (s.Follows e)
  | .connect _ => isTrue trivial
  | .socket index .disconnect => inferInstanceAs (Decidable
      ((s.slot index).fd ≠ invalidFd → ¬ s.OtherApp index))
  | .socket index (.data bytes) => inferInstanceAs (Decidable ((s.slot index).fd ≠ invalidFd →
      (registered bytes).map Prod.fst = some typeNormal → (s.slot index).type = typeApp →
        s.OtherApp index))
  | .response data => inferInstanceAs (Decidable
      (s.apps ≠ [] → data.head? ≠ some 0 ∧ data.length < maxBufSize))

instance (s : Server) : (e : Event) → Decidable (s.Occurs e)
  | .connect conn => inferInstanceAs (Decidable
      (conn = invalidFd ∨ (0 ≤ conn ∧ conn ∉ s.openFds)))
  | .socket index _ => inferInstanceAs (Decidable (index < s.clientSize))
  | .response data => inferInstanceAs (Decidable (data ≠ [] ∧ data.length < maxBuf))

/-! ## The table and the clients -/

/-- A slot with a descriptor. -/
def inUse (c : ClientSock) : Bool := c.fd ≠ invalidFd

/-- **The table holds the clients**, in some order and with free slots
between them. -/
structure Registry (s : Server) : Prop where
  table : (s.clientSock.filter inUse).Perm s.clients
  free : ∀ c ∈ s.clientSock, c.fd = invalidFd → c = freeSlot
  positive : ∀ c ∈ s.clients, 0 < c.fd
  nodup : (s.clients.map (·.fd)).Nodup
  live : ∀ c ∈ s.clients, c.fd ∈ s.openFds
  valid : ∀ fd ∈ s.openFds, 0 ≤ fd
  kinds : ∀ c ∈ s.clients, c.type = typeApp ↔ c.id = idApp
  sock : s.serverSock ≠ invalidFd

variable {s : Server}

theorem inUse_of_pos {c : ClientSock} (h : 0 < c.fd) : inUse c = true := by
  refine decide_eq_true ?_
  unfold invalidFd
  omega

variable {i : ℕ} {conn : ℤ}

theorem lt_of_inUse (hi : (s.slot i).fd ≠ invalidFd) : i < s.clientSock.length := by
  by_contra hge
  refine hi ?_
  unfold slot
  rw [getD_eq_default _ _ (Nat.le_of_not_lt hge)]
  rfl

theorem Registry.split (h : Registry s) (hlen : i < s.clientSock.length) :
    ∃ rest, s.clients.Perm ([s.slot i].filter inUse ++ rest) ∧
      ∀ c, ((s.clientSock.set i c).filter inUse).Perm ([c].filter inUse ++ rest) := by
  have hslot : s.slot i = s.clientSock[i] := getD_eq_getElem _ _ hlen
  refine ⟨(s.clientSock.eraseIdx i).filter inUse, ?_, fun c => ?_⟩
  · rw [hslot, ← filter_append]
    exact h.table.symm.trans ((getElem_cons_eraseIdx_perm hlen).symm.filter inUse)
  · rw [← filter_append]
    exact (set_perm_cons_eraseIdx hlen c).filter inUse

/-- **A slot in use is one client's.** -/
theorem Registry.split_inUse (h : Registry s) (hi : (s.slot i).fd ≠ invalidFd) :
    ∃ rest, s.clients.Perm (s.slot i :: rest) ∧ (∀ c ∈ rest, c.fd ≠ (s.slot i).fd) ∧
      ∀ c, ((s.clientSock.set i c).filter inUse).Perm ([c].filter inUse ++ rest) := by
  obtain ⟨rest, hclients, hset⟩ := h.split (lt_of_inUse hi)
  have hused : inUse (s.slot i) = true := decide_eq_true hi
  rw [filter_cons_of_pos hused, filter_nil, singleton_append] at hclients
  refine ⟨rest, hclients, fun c hc hsame => ?_, hset⟩
  have hnodup := ((hclients.map (·.fd)).nodup_iff).mp h.nodup
  rw [map_cons, nodup_cons] at hnodup
  exact hnodup.1 (hsame ▸ mem_map_of_mem hc)

theorem Registry.slot_mem (h : Registry s) (hi : (s.slot i).fd ≠ invalidFd) :
    s.slot i ∈ s.clients := by
  obtain ⟨rest, hclients, -, -⟩ := h.split_inUse hi
  exact hclients.mem_iff.mpr mem_cons_self

theorem registry_start {serverSock : ℤ} (h : 0 ≤ serverSock) : Registry (start serverSock) where
  table := List.Perm.refl _
  free := fun _ hc _ => eq_of_mem_replicate hc
  positive := nofun
  nodup := nodup_nil
  live := nofun
  valid := by
    intro fd hfd
    rw [mem_singleton.mp hfd]
    exact h
  kinds := nofun
  sock := by
    show serverSock ≠ invalidFd
    unfold invalidFd
    omega

/-! ## A client connects -/

/-- The server with a client more, in a slot. -/
def connected (s : Server) (index : ℕ) (conn : ℤ) : Server :=
  { s with
    openFds := s.openFds ++ [conn]
    clientSock := s.clientSock.set index { freeSlot with fd := conn }
    clientSize := s.clientSize + 1
    clients := s.clients ++ [{ freeSlot with fd := conn }] }

/-- **A connection is refused, or takes a free slot.** -/
theorem Registry.acceptConnection_spec (h : Registry s) (hp : s.Possible (.accept conn)) :
    s.acceptConnection conn = s ∨ ∃ i < s.clientSock.length, s.slot i = freeSlot ∧ 0 < conn ∧
      conn ∉ s.openFds ∧ s.acceptConnection conn = s.connected i conn := by
  unfold acceptConnection
  rcases hp with rfl | ⟨hnn, hfresh⟩
  · -- `accept` has failed
    left
    have hclosed : invalidFd ∉ s.openFds := fun hc => absurd (h.valid _ hc) (by decide)
    rw [if_pos rfl]
    unfold close
    rw [if_neg hclosed, if_pos rfl]
  · have hne : conn ≠ invalidFd := by
      unfold invalidFd
      omega
    rw [if_neg hne]
    dsimp only
    have hrefused : ({ s with openFds := s.openFds ++ [conn] } : Server).close conn = s := by
      have hback : (s.openFds ++ [conn]).erase conn = s.openFds := by
        rw [erase_append_right _ hfresh, erase_cons_head, append_nil]
      unfold close
      rw [if_pos (mem_append_right _ (mem_singleton_self _)), hback]
    unfold addClient
    by_cases hpos : conn > 0
    · rw [if_pos hpos]
      cases hfind : s.clientSock.findIdx? (·.fd = invalidFd) with
      | none =>
        left
        exact hrefused
      | some i =>
        right
        obtain ⟨hlen, hfd, -⟩ := findIdx?_eq_some_iff_getElem.mp hfind
        have hslot : s.slot i = s.clientSock[i] := getD_eq_getElem _ _ hlen
        have hfree : s.slot i = freeSlot := by
          rw [hslot]
          exact h.free _ (getElem_mem hlen) (of_decide_eq_true hfd)
        refine ⟨i, hlen, hfree, hpos, hfresh, ?_⟩
        unfold connected
        rw [← hfree]
        rfl
    · rw [if_neg hpos]
      left
      exact hrefused

theorem Registry.connected (h : Registry s) (hlen : i < s.clientSock.length)
    (hfree : s.slot i = freeSlot) (hpos : 0 < conn) (hfresh : conn ∉ s.openFds) :
    Registry (s.connected i conn) := by
  obtain ⟨rest, hclients, hset⟩ := h.split hlen
  have hnew : inUse { freeSlot with fd := conn } = true := inUse_of_pos hpos
  have hold : inUse (s.slot i) = false := by
    rw [hfree]
    rfl
  rw [filter_cons_of_neg (Bool.not_eq_true _ ▸ hold)] at hclients
  refine ⟨?_, ?_, ?_, ?_, ?_, ?_, ?_, h.sock⟩
  · refine (hset _).trans ?_
    rw [filter_cons_of_pos hnew]
    exact (perm_append_comm).trans (hclients.symm.append_right _)
  · intro c hc hfd
    rcases mem_or_eq_of_mem_set hc with hold | rfl
    · exact h.free c hold hfd
    · exact absurd hfd (of_decide_eq_true hnew)
  · intro c hc
    rcases mem_append.mp hc with hold | hnew
    · exact h.positive c hold
    · rw [mem_singleton.mp hnew]
      exact hpos
  · have hmap : (s.connected i conn).clients.map (·.fd) = s.clients.map (·.fd) ++ [conn] :=
      map_append
    rw [hmap]
    refine nodup_append.mpr ⟨h.nodup, nodup_singleton conn, ?_⟩
    rintro _ ha _ hb rfl
    obtain ⟨c, hc, hfd⟩ := mem_map.mp ha
    exact hfresh (mem_singleton.mp hb ▸ hfd ▸ h.live c hc)
  · intro c hc
    rcases mem_append.mp hc with hold | hnew
    · exact mem_append_left _ (h.live c hold)
    · rw [mem_singleton.mp hnew]
      exact mem_append_right _ (mem_singleton_self _)
  · intro fd hfd
    rcases mem_append.mp hfd with hold | hnew
    · exact h.valid fd hold
    · rw [mem_singleton.mp hnew]
      exact Int.le_of_lt hpos
  · intro c hc
    rcases mem_append.mp hc with hold | hnew
    · exact h.kinds c hold
    · rw [mem_singleton.mp hnew]
      have htype : ¬ invalidFd = typeApp := by decide
      have hid : ¬ invalidFd = idApp := by decide
      exact iff_of_false htype hid

/-! ## A client registers -/

/-- The server once the client of a slot has registered itself. -/
def register (s : Server) (index : ℕ) (type id : ℤ) : Server :=
  { s with
    clientSock := s.clientSock.set index { s.slot index with type := type, id := id }
    currentType := if type = typeApp then typeApp else s.currentType
    clients := s.clients.map fun c =>
      if c.fd = (s.slot index).fd then { c with type := type, id := id } else c }

theorem registered_kinds {data : List BYTE} {type id : ℤ} (h : registered data = some (type, id)) :
    (type = typeNormal ∨ type = typeApp) ∧ (type = typeApp ↔ id = idApp) := by
  unfold registered at h
  split_ifs at h
  all_goals
    cases h
    decide

/-- **Data of a client** registers it, or changes neither table nor mode. -/
theorem processSocketData_data (hi : (s.slot i).fd ≠ invalidFd) (bytes : List BYTE) :
    (registered bytes = none ∧ s.processSocketData i (.data bytes) = s) ∨
      ∃ type id, registered bytes = some (type, id) ∧
        s.processSocketData i (.data bytes) = s.register i type id := by
  have hself : s.clientSock.set i (s.slot i) = s.clientSock := by
    have hlen := lt_of_inUse hi
    have hslot : s.slot i = s.clientSock[i] := getD_eq_getElem _ _ hlen
    rw [hslot]
    exact set_getElem_self _
  unfold processSocketData registered
  dsimp only
  rw [if_neg hi]
  by_cases hvtype : startsWith bytes "\r\n+VTYPE:" = true
  · rw [if_pos hvtype, if_pos hvtype]
    unfold setType register setClientSockType
    by_cases hnv : startsWith bytes "\r\n+VTYPE:1,nv" = true
    · right
      refine ⟨typeNormal, idNv, if_pos hnv, ?_⟩
      simp [hnv, typeNormal, typeApp]
    · by_cases hims : startsWith bytes "\r\n+VTYPE:1,ims" = true
      · right
        refine ⟨typeNormal, idIms, by rw [if_neg hnv, if_pos hims], ?_⟩
        simp [hnv, hims, typeNormal, typeApp]
      · by_cases happ : startsWith bytes "\r\n+VTYPE:2,app" = true
        · right
          refine ⟨typeApp, idApp, by rw [if_neg hnv, if_neg hims, if_pos happ], ?_⟩
          simp [hnv, hims, happ]
        · left
          refine ⟨by rw [if_neg hnv, if_neg hims, if_neg happ], ?_⟩
          simp [hnv, hims, happ, hself]
  · left
    rw [if_neg hvtype, if_neg hvtype]
    exact ⟨rfl, rfl⟩

/-- What registering does to the clients. -/
theorem Registry.register_clients (h : Registry s) (hi : (s.slot i).fd ≠ invalidFd) (type id : ℤ) :
    ∃ rest, s.clients.Perm (s.slot i :: rest) ∧
      (∀ c ∈ rest, c.fd ≠ (s.slot i).fd) ∧
      (s.register i type id).clients.Perm ({ s.slot i with type := type, id := id } :: rest) ∧
      ((s.register i type id).clientSock.filter inUse).Perm
        ({ s.slot i with type := type, id := id } :: rest) := by
  obtain ⟨rest, hclients, hothers, hset⟩ := h.split_inUse hi
  refine ⟨rest, hclients, hothers, ?_, ?_⟩
  · refine (hclients.map _).trans (Perm.of_eq ?_)
    rw [map_cons, if_pos rfl]
    congr 1
    refine (map_congr_left fun c hc => ?_).trans (map_id rest)
    exact if_neg (hothers c hc)
  · have hused : inUse { s.slot i with type := type, id := id } = true := decide_eq_true hi
    have hperm := hset { s.slot i with type := type, id := id }
    rwa [filter_cons_of_pos hused, filter_nil, singleton_append] at hperm

theorem Registry.register (h : Registry s) (hi : (s.slot i).fd ≠ invalidFd) {type id : ℤ}
    (hkind : type = typeApp ↔ id = idApp) : Registry (s.register i type id) := by
  obtain ⟨rest, hclients, -, hclients', htable⟩ := h.register_clients hi type id
  have hfds : ((s.register i type id).clients.map (·.fd)).Perm (s.clients.map (·.fd)) :=
    (hclients'.map (·.fd)).trans (hclients.map (·.fd)).symm
  have hfd : ∀ c ∈ (s.register i type id).clients, ∃ c' ∈ s.clients, c'.fd = c.fd := by
    intro c hc
    exact mem_map.mp (hfds.mem_iff.mp (mem_map_of_mem hc))
  refine ⟨htable.trans hclients'.symm, ?_, ?_, hfds.nodup_iff.mpr h.nodup, ?_, h.valid, ?_, h.sock⟩
  · intro c hc hfree
    rcases mem_or_eq_of_mem_set hc with hold | rfl
    · exact h.free c hold hfree
    · exact absurd hfree hi
  · intro c hc
    obtain ⟨c', hc', hsame⟩ := hfd c hc
    exact hsame ▸ h.positive c' hc'
  · intro c hc
    obtain ⟨c', hc', hsame⟩ := hfd c hc
    exact hsame ▸ h.live c' hc'
  · intro c hc
    rcases mem_cons.mp (hclients'.mem_iff.mp hc) with rfl | hrest
    · exact hkind
    · exact h.kinds c (hclients.mem_iff.mpr (mem_cons_of_mem _ hrest))

/-! ## A client leaves -/

/-- The server once the client of a slot has left. -/
def parted (s : Server) (index : ℕ) : Server :=
  { s with
    currentType := typeNormal
    clientSock := s.clientSock.set index freeSlot
    clientSize := s.clientSize - 1
    clients := s.clients.filter (·.fd ≠ (s.slot index).fd) }

theorem Registry.disconnect (h : Registry s) (hi : (s.slot i).fd ≠ invalidFd) :
    s.processSocketData i .disconnect = s.parted i := by
  have hpos := h.positive _ (h.slot_mem hi)
  have hclosed : invalidFd ∉ s.openFds := fun hc => absurd (h.valid _ hc) (by decide)
  rw [openFds_disconnect (Or.inr hpos) (lt_of_inUse hi) hclosed, if_neg hi]
  rfl

theorem Registry.parted (h : Registry s) (hi : (s.slot i).fd ≠ invalidFd) :
    Registry (s.parted i) := by
  obtain ⟨rest, hclients, hothers, hset⟩ := h.split_inUse hi
  have hrest : (s.parted i).clients.Perm rest := by
    refine (hclients.filter _).trans (Perm.of_eq ?_)
    rw [filter_cons_of_neg (by simp), filter_eq_self]
    exact fun c hc => decide_eq_true (hothers c hc)
  have hsub : ∀ c ∈ (s.parted i).clients, c ∈ s.clients := fun c hc => (mem_filter.mp hc).1
  refine ⟨(hset freeSlot).trans hrest.symm, ?_, fun c hc => h.positive c (hsub c hc), ?_,
    fun c hc => h.live c (hsub c hc), h.valid, fun c hc => h.kinds c (hsub c hc), h.sock⟩
  · intro c hc hfree
    rcases mem_or_eq_of_mem_set hc with hold | rfl
    · exact h.free c hold hfree
    · rfl
  · exact (h.nodup.sublist (filter_sublist.map _))

/-- **The registry stays**, whoever leaves. -/
theorem Registry.event (h : Registry s) (e : Event) (he : s.Occurs e) : Registry (s.event e) := by
  cases e with
  | connect conn =>
    rcases h.acceptConnection_spec he with heq | ⟨i, hlen, hfree, hpos, hfresh, heq⟩
    · rwa [Server.event, heq]
    · rw [Server.event, heq]
      exact h.connected hlen hfree hpos hfresh
  | socket i read =>
    rw [Server.event]
    by_cases hi : (s.slot i).fd = invalidFd
    · rwa [processSocketData.eq_def, if_pos hi]
    cases read with
    | disconnect =>
      rw [h.disconnect hi]
      exact h.parted hi
    | data bytes =>
      rcases processSocketData_data hi bytes with ⟨-, heq⟩ | ⟨type, id, hreg, heq⟩
      · rwa [heq]
      · rw [heq]
        exact h.register hi (registered_kinds hreg).2
  | response data => exact h

/-! ## The mode -/

/-- **The invariant**: the mode is that of the clients, and every app is
in a slot that is looked at. -/
structure Current (s : Server) : Prop extends Registry s where
  routed : Routed s
  mode : s.currentType = typeNormal ∨ s.currentType = typeApp
  front : ∀ c ∈ s.clientSock.drop s.clientSize, c.id ≠ idApp

theorem current_start {serverSock : ℤ} (h : 0 ≤ serverSock) : Current (start serverSock) where
  toRegistry := registry_start h
  routed := by
    refine iff_of_false (fun hc => ?_) nofun
    cases hc
  mode := Or.inl rfl
  front := by
    intro c hc
    rw [eq_of_mem_replicate hc]
    decide

theorem mem_drop_set {l : List ClientSock} {n : ℕ} {c c' : ClientSock}
    (h : c ∈ (l.set i c').drop n) :
    c ∈ l.drop n ∨ c = c' := by
  rw [drop_set] at h
  split_ifs at h
  · exact Or.inl h
  · exact mem_or_eq_of_mem_set h

theorem Current.connect (h : Current s) (hp : s.Possible (.accept conn)) :
    Current (s.acceptConnection conn) := by
  rcases h.acceptConnection_spec hp with heq | ⟨i, hlen, hfree, hpos, hfresh, heq⟩
  · rw [heq]
    exact h
  · rw [heq]
    refine ⟨h.connected hlen hfree hpos hfresh, ?_, h.mode, ?_⟩
    · refine h.routed.trans ⟨?_, ?_⟩
      · rintro ⟨c, hc, happ⟩
        exact ⟨c, mem_append_left _ hc, happ⟩
      · rintro ⟨c, hc, happ⟩
        rcases mem_append.mp hc with hold | hnew
        · exact ⟨c, hold, happ⟩
        · rw [mem_singleton.mp hnew] at happ
          cases happ
    · intro c hc
      rcases mem_drop_set hc with hold | rfl
      · exact h.front c (drop_subset_drop_left _ (Nat.le_succ _) hold)
      · have hid : invalidFd ≠ idApp := by decide
        exact hid

theorem otherApp_iff {rest : List ClientSock} (hclients : s.clients.Perm (s.slot i :: rest))
    (hothers : ∀ c ∈ rest, c.fd ≠ (s.slot i).fd) :
    s.OtherApp i ↔ ∃ c ∈ rest, c.type = typeApp := by
  constructor
  · rintro ⟨c, hc, hne, happ⟩
    rcases mem_cons.mp (hclients.mem_iff.mp hc) with rfl | hrest
    · exact absurd rfl hne
    · exact ⟨c, hrest, happ⟩
  · rintro ⟨c, hc, happ⟩
    exact ⟨c, hclients.mem_iff.mpr (mem_cons_of_mem _ hc), hothers c hc, happ⟩

/-- **A client registers**: the mode is right unless it was the only app. -/
theorem Current.routed_register_iff (h : Current s) (hi : (s.slot i).fd ≠ invalidFd) {type id : ℤ}
    (htype : type = typeNormal ∨ type = typeApp) :
    Routed (s.register i type id) ↔
      (type = typeNormal → (s.slot i).type = typeApp → s.OtherApp i) := by
  obtain ⟨rest, hclients, hothers, hclients', -⟩ := h.register_clients hi type id
  rw [otherApp_iff hclients hothers]
  have happ : (∃ c ∈ (s.register i type id).clients, c.type = typeApp) ↔
      type = typeApp ∨ ∃ c ∈ rest, c.type = typeApp := by
    simp only [hclients'.mem_iff, mem_cons, exists_eq_or_imp]
  have hold : s.currentType = typeApp ↔
      (s.slot i).type = typeApp ∨ ∃ c ∈ rest, c.type = typeApp := by
    refine h.routed.trans ?_
    simp only [hclients.mem_iff, mem_cons, exists_eq_or_imp]
  unfold Routed
  rw [happ]
  have hmode : (s.register i type id).currentType =
      if type = typeApp then typeApp else s.currentType := rfl
  rw [hmode]
  rcases htype with rfl | rfl
  · have hne : ¬ typeNormal = typeApp := by decide
    rw [if_neg hne, hold, or_iff_right hne, or_iff_right_iff_imp]
    exact (imp_iff_right rfl).symm
  · have hne : ¬ typeApp = typeNormal := by decide
    rw [if_pos rfl]
    exact iff_of_true (iff_of_true rfl (Or.inl rfl)) fun h => absurd h hne

theorem Current.register (h : Current s) (hi : (s.slot i).fd ≠ invalidFd) (hsize : i < s.clientSize)
    {type id : ℤ} (hkind : type = typeApp ↔ id = idApp) (hrouted : Routed (s.register i type id)) :
    Current (s.register i type id) := by
  refine ⟨h.toRegistry.register hi hkind, hrouted, ?_, fun c hc => ?_⟩
  · show (if type = typeApp then typeApp else s.currentType) = typeNormal ∨
      (if type = typeApp then typeApp else s.currentType) = typeApp
    split_ifs
    · exact Or.inr rfl
    · exact h.mode
  · have hdrop : (s.register i type id).clientSock.drop s.clientSize =
        s.clientSock.drop s.clientSize := drop_set_of_lt hsize
    exact h.front c (hdrop ▸ hc)

/-- **A client leaves**: the mode is right if no app stays. -/
theorem routed_parted_iff :
    Routed (s.parted i) ↔ ¬ s.OtherApp i := by
  have happ : (∃ c ∈ (s.parted i).clients, c.type = typeApp) ↔ s.OtherApp i := by
    constructor
    · rintro ⟨c, hc, happ⟩
      obtain ⟨hmem, hne⟩ := mem_filter.mp hc
      exact ⟨c, hmem, of_decide_eq_true hne, happ⟩
    · rintro ⟨c, hc, hne, happ⟩
      exact ⟨c, mem_filter.mpr ⟨hc, decide_eq_true hne⟩, happ⟩
  have hmode : ¬ (s.parted i).currentType = typeApp := by
    show ¬ typeNormal = typeApp
    decide
  unfold Routed
  rw [happ]
  exact ⟨fun hiff hother => hmode (hiff.mpr hother), fun hnone => iff_of_false hmode hnone⟩

theorem Current.parted (h : Current s) (hi : (s.slot i).fd ≠ invalidFd)
    (hrouted : Routed (s.parted i)) : Current (s.parted i) := by
  have hregistry := h.toRegistry.parted hi
  have hnone : ∀ c ∈ (s.parted i).clients, c.type ≠ typeApp := by
    intro c hc happ
    have hmode : typeNormal = typeApp := hrouted.mpr ⟨c, hc, happ⟩
    exact absurd hmode (by decide)
  refine ⟨hregistry, hrouted, Or.inl rfl, fun c hc hid => ?_⟩
  have hmem : c ∈ (s.parted i).clientSock := mem_of_mem_drop hc
  by_cases hfd : c.fd = invalidFd
  · rw [hregistry.free c hmem hfd] at hid
    exact absurd hid (by decide)
  · have hclient := hregistry.table.mem_iff.mp (mem_filter.mpr ⟨hmem, decide_eq_true hfd⟩)
    exact hnone c hclient ((hregistry.kinds c hclient).mpr hid)

/-- What is read from a slot. -/
theorem Current.socket (h : Current s) (hsize : i < s.clientSize) (read : Read) :
    (s.Follows (.socket i read) ↔ Routed (s.processSocketData i read)) ∧
      (Routed (s.processSocketData i read) → Current (s.processSocketData i read)) := by
  by_cases hi : (s.slot i).fd = invalidFd
  · have heq : s.processSocketData i read = s := if_pos hi
    rw [heq]
    exact ⟨iff_of_true (fun hne => absurd hi hne) h.routed, fun _ => h⟩
  · cases read with
    | disconnect =>
      rw [h.disconnect hi]
      refine ⟨?_, fun hrouted => h.parted hi hrouted⟩
      rw [routed_parted_iff]
      exact ⟨fun hnone => hnone hi, fun hnone _ => hnone⟩
    | data bytes =>
      rcases processSocketData_data hi bytes with ⟨hreg, heq⟩ | ⟨type, id, hreg, heq⟩
      · rw [heq]
        refine ⟨iff_of_true (fun _ hnv => ?_) h.routed, fun _ => h⟩
        rw [hreg] at hnv
        cases hnv
      · obtain ⟨htype, hkind⟩ := registered_kinds hreg
        rw [heq]
        refine ⟨?_, fun hrouted => h.register hi hsize hkind hrouted⟩
        rw [h.routed_register_iff hi htype]
        unfold Follows
        dsimp only
        rw [hreg, Option.map_some, Option.some_inj]
        exact ⟨fun hfollows => hfollows hi, fun honly _ => honly⟩

/-! ## A response -/

/-- The apps stand in the slots that are looked at. -/
theorem Current.sendDataTo_apps (h : Current s) :
    (s.sendDataTo idApp).Perm (s.apps.map (·.fd)) := by
  unfold sendDataTo apps
  refine List.Perm.map _ ?_
  have hdrop : (s.clientSock.drop s.clientSize).filter (fun c => c.fd > 0 ∧ c.id = idApp) = [] := by
    rw [filter_eq_nil_iff]
    intro c hc happ
    exact h.front c hc (of_decide_eq_true happ).2
  have htake : (s.clientSock.take s.clientSize).filter (fun c => c.fd > 0 ∧ c.id = idApp) =
      s.clientSock.filter fun c => c.fd > 0 ∧ c.id = idApp := by
    conv_rhs => rw [← take_append_drop s.clientSize s.clientSock]
    rw [filter_append, hdrop, append_nil]
  have hused : s.clientSock.filter (fun c => c.fd > 0 ∧ c.id = idApp) =
      (s.clientSock.filter inUse).filter fun c => c.fd > 0 ∧ c.id = idApp := by
    rw [filter_filter]
    refine filter_congr fun c _ => ?_
    by_cases hpos : 0 < c.fd
    · rw [inUse_of_pos hpos, Bool.and_true]
    · simp [hpos]
  rw [htake, hused]
  refine (h.table.filter _).trans (Perm.of_eq (filter_congr fun c hc => ?_))
  rw [decide_eq_decide, h.kinds c hc]
  exact and_iff_right (h.positive c hc)

theorem apps_eq_nil_iff : s.apps = [] ↔ ¬ ∃ c ∈ s.clients, c.type = typeApp := by
  unfold apps
  rw [filter_eq_nil_iff]
  simp

/-- **A response** reaches the apps if it is not too long and does not
begin with a zero. -/
theorem Current.forwards_iff (h : Current s) {data : List BYTE} (hdata : data ≠ []) :
    s.Forwards (.response data) ↔ s.Follows (.response data) := by
  unfold Forwards Follows
  dsimp only
  by_cases hnone : s.apps = []
  · rw [if_pos hnone]
    refine iff_of_true ?_ (fun hsome => absurd hnone hsome)
    have hmode : s.currentType = typeNormal :=
      h.mode.resolve_right fun happ => apps_eq_nil_iff.mp hnone (h.routed.mp happ)
    exact if_pos hmode
  · rw [if_neg hnone]
    have hmode : s.currentType = typeApp :=
      h.routed.mpr (not_not.mp fun hc => hnone (apps_eq_nil_iff.mpr hc))
    have hne : ¬ s.currentType = 0 := by
      rw [hmode]
      decide
    have hresponse : s.modemResponse data = .apps (s.sendDataToConnectivity data idApp) :=
      if_neg hne
    rw [hresponse]
    have hlost : ¬ (∃ fds, Destination.apps [] = .apps fds ∧ fds.Perm (s.apps.map (·.fd))) := by
      rintro ⟨_, ⟨⟩, hperm⟩
      exact hnone (map_eq_nil_iff.mp hperm.symm.eq_nil)
    unfold sendDataToConnectivity
    by_cases hzero : data.head? = some 0
    · rw [if_pos (Or.inr hzero)]
      exact iff_of_false hlost fun hfits => (hfits hnone).1 hzero
    · rw [if_neg (not_or.mpr ⟨hdata, hzero⟩)]
      by_cases hlong : data.length ≥ maxBufSize
      · rw [if_pos hlong]
        exact iff_of_false hlost fun hfits => absurd (hfits hnone).2 (Nat.not_lt.mpr hlong)
      · rw [if_neg hlong, if_neg h.sock]
        exact iff_of_true ⟨_, rfl, h.sendDataTo_apps⟩ fun _ => ⟨hzero, Nat.lt_of_not_le hlong⟩

/-- **The step lemma.** -/
theorem Current.event (h : Current s) {e : Event} (he : s.Occurs e) :
    (s.Follows e → Current (s.event e) ∧ s.Forwards e) ∧
      (Routed (s.event e) → s.Forwards e → s.Follows e) := by
  cases e with
  | connect conn => exact ⟨fun _ => ⟨h.connect he, trivial⟩, fun _ _ => trivial⟩
  | socket i read =>
    obtain ⟨hiff, hcurrent⟩ := h.socket he read
    exact ⟨fun hfollows => ⟨hcurrent (hiff.mp hfollows), trivial⟩, fun hrouted _ => hiff.mpr hrouted⟩
  | response data =>
    have hiff := h.forwards_iff he.1
    exact ⟨fun hfollows => ⟨h, hiff.mpr hfollows⟩, fun _ hforwards => hiff.mp hforwards⟩

end Server

open Vcd.Server

/-- **When the mode follows the clients.** For every sequence of connects,
reads and responses that can happen: the mode is that of the registered
clients in every state, and every response goes where it should, exactly
when the condition holds of every event. -/
theorem routed_iff {serverSock : ℤ} (hsock : 0 ≤ serverSock) {events : List Event}
    (h : Run.Throughout event Occurs (start serverSock) events) :
    Run.Always event Routed (start serverSock) events ∧
        Run.Throughout event Forwards (start serverSock) events ↔
      Run.Throughout event Follows (start serverSock) events :=
  Run.Always.and_throughout_iff_of (I := Current) (fun _ hs => hs.routed)
    (fun _ _ hs he => (hs.event he).1) (fun _ _ hs he => (hs.event he).2) (current_start hsock) h

/-- The client of a slot registers. -/
def registers (index : ℕ) (kind : String) : Event :=
  .socket index (.data (bytesOf ("\r\n+VTYPE:" ++ kind)))

/-- An app and a client of `nv` connect, and the app leaves. -/
def appLeaves : List Event :=
  [.connect 4, .connect 5, registers 1 "1,nv", registers 0 "2,app", .response [0x4F, 0x4B],
    .socket 0 .disconnect]

theorem routed_appLeaves :
    Run.Always event Routed (start 3) appLeaves ∧ Run.Throughout event Forwards (start 3) appLeaves :=
  (routed_iff (by decide) (by decide)).mpr (by decide)

/-- The other client leaves. -/
def otherLeaves : List Event :=
  [.connect 4, .connect 5, registers 0 "2,app", .socket 1 .disconnect]

/-- An app registers as something else. -/
def registersAgain : List Event := [.connect 4, registers 0 "2,app", registers 0 "1,nv"]

/-- **Any client that leaves resets the mode**, and an app that registers
as something else does not. -/
theorem not_routed_otherLeaves :
    (Run.Throughout event Occurs (start 3) otherLeaves ∧
      ¬ Run.Always event Routed (start 3) otherLeaves) ∧
    (Run.Throughout event Occurs (start 3) registersAgain ∧
      ¬ Run.Always event Routed (start 3) registersAgain) := by
  refine ⟨⟨by decide, fun h => ?_⟩, by decide, fun h => ?_⟩
  · -- the first client is still there
    have hmode := h.last.mpr ⟨⟨4, typeApp, idApp⟩, by decide, rfl⟩
    exact absurd hmode (by decide)
  · obtain ⟨c, hc, happ⟩ := h.last.mp (by decide)
    have hnone : ∀ c ∈ (registersAgain.foldl event (start 3)).clients, c.type ≠ typeApp := by
      decide
    exact hnone c hc happ

/-- **Nothing is misdelivered**: what is sent to an id is written to clients that
are registered under it, and to none of them twice. -/
def Server.Addressed (s : Server) : Prop :=
  ∀ id, (s.sendDataTo id).Nodup ∧ ∀ fd ∈ s.sendDataTo id, ∃ c ∈ s.clients, c.fd = fd ∧ c.id = id

/-- **In every state**, whoever leaves. -/
theorem always_addressed {serverSock : ℤ} (hsock : 0 ≤ serverSock) {rounds : List Round}
    (h : Run.Throughout round Possible (start serverSock) rounds) :
    Run.Always round Addressed (start serverSock) rounds := by
  have hregistry : Run.Always round Registry (start serverSock) rounds := by
    refine Run.Always.of_invariant (fun s r hs hr => ?_) (registry_start hsock) h
    obtain ⟨hround, hoccurs⟩ := foldl_roundEvents hr
    rw [← hround]
    exact (Run.Always.of_invariant (fun _ e hs he => hs.event e he) hs hoccurs).last
  refine hregistry.mono fun s hs id => ⟨?_, fun fd hfd => ?_⟩
  · have hsub : ((s.clientSock.take s.clientSize).filter fun c => c.fd > 0 ∧ c.id = id).Sublist
        (s.clientSock.filter inUse) :=
      ((take_sublist _ _).filter _).trans
        (monotone_filter_right _ fun c hc => inUse_of_pos (of_decide_eq_true hc).1)
    exact ((hs.table.map (·.fd)).nodup_iff.mpr hs.nodup).sublist (hsub.map _)
  · obtain ⟨c, hc, rfl⟩ := mem_map.mp hfd
    obtain ⟨hmem, hcond⟩ := mem_filter.mp hc
    obtain ⟨hpos, hid⟩ := of_decide_eq_true hcond
    have hused := mem_filter.mpr ⟨mem_of_mem_take hmem, inUse_of_pos hpos⟩
    exact ⟨c, hs.table.mem_iff.mp hused, rfl, hid⟩

theorem addressed_firstLeaves : Run.Always round Addressed (start 3) firstLeaves :=
  always_addressed (by decide)
    ⟨Or.inr (by decide), Or.inr (by decide), forall_mem_singleton.mpr (by decide), trivial⟩

end ExynosVendor.Vcd
