import ExynosVendor.Common.Splitter
import ExynosVendor.Telephony.Vcd
import Mathlib.Data.List.DropRight

/-!
# The commands from USB

`BufferedInput` of `vcd/vcd.cpp` puts what is read from USB together to AT
commands, in a buffer that is kept between the reads, and `RouteCommands`
hands each to the first device that takes it. `assembles_iff` says that
the commands do not depend on the reads, and when a blank one is dropped.
-/

namespace ExynosVendor.Vcd

open Splitter
open Ril (BYTE)
open Block (put)
open List Option

def maxCmdBufSize : ℕ := 1024 * 4

/-- `'\r'`. -/
def CR : BYTE := 0x0D

/-- `'\n'`. -/
def LF : BYTE := 0x0A

/-- `' '`. -/
def space : BYTE := 0x20

/-- A command, as it is handed to `RouteCommands`. -/
abbrev Command := List BYTE

/-! ## The buffer -/

/-- The static variables of `BufferedInput`. -/
structure Input where
  buffer : List BYTE
  c : ℕ
  deriving DecidableEq

namespace Input

/-- Before the first call, and behind a flush. -/
def cleared : Input := ⟨List.replicate (maxCmdBufSize + 1) 0, 0⟩

/-- The line feed of a pair goes to the buffer if there is room. -/
def putPair (s : Input) (pair : Bool) : Option Input :=
  if pair ∧ s.c < maxCmdBufSize then (put s.buffer s.c LF).map fun buffer => ⟨buffer, s.c + 1⟩
  else some s

/-- A turn of the loop, with the line feed behind a carriage return or
without; and the command it flushes. -/
def turn (s : Input) (ch : BYTE) (pair : Bool) : Option (Input × List Command) := do
  let buffer ← put s.buffer s.c ch
  let s ← putPair ⟨buffer, s.c + 1⟩ pair
  let buffer ← put s.buffer s.c 0
  if (ch = CR ∨ ch = LF) ∨ s.c = maxCmdBufSize then
    -- the command is `strlen` of it
    some (cleared, [buffer.takeWhile (· ≠ 0)])
  else some (⟨buffer, s.c⟩, [])

/-- The loop. -/
def loop : Input → List BYTE → Option (Input × List Command)
  | s, [] => some (s, [])
  | s, [ch] => s.turn ch false
  | s, ch :: next :: data =>
      if ch = CR ∧ next = LF then do
        let (s, out) ← s.turn ch true
        let (s, out') ← loop s data
        some (s, out ++ out')
      else do
        let (s, out) ← s.turn ch false
        let (s, out') ← loop s (next :: data)
        some (s, out ++ out')

/-- `BufferedInput`, by the commands it hands to `RouteCommands`; `none` is
a write beside the buffer. -/
def bufferedInput (s : Input) (data : List BYTE) : Option (Input × List Command) :=
  if data = [] ∨ data.head? = some 0 then some (s, []) else s.loop data

/-- One call after the other. -/
def calls : Input → List (List BYTE) → Option (Input × List Command)
  | s, [] => some (s, [])
  | s, data :: blocks => do
      let (s, out) ← s.bufferedInput data
      let (s, out') ← calls s blocks
      some (s, out ++ out')

end Input

/-! ## The devices -/

/-- Where something is sent. -/
inductive Sink where
  | modem
  | client (id : ℤ)
  | ril
  /-- `RouteCommandsErrorHandler`, to USB. -/
  | error
  deriving DecidableEq

/-- **What the routing depends on.** `run_usb_monitor` calls `BufferedInput`
in no other mode than these. -/
structure Routing where
  /-- `g_dun_mode[0]`. -/
  dunMode : Char
  dunMode_ne : dunMode ≠ '0'
  /-- `g_current_type`. -/
  currentType : ℤ
  /-- Whether the modem takes what is written to it. -/
  modemWrites : Bool
  /-- Whether a client of an id takes what is sent to it. -/
  clientWrites : ℤ → Bool
  /-- Whether there is a RIL client. -/
  rilOpens : Bool
  /-- The byte in front of the buffer. -/
  before : BYTE

/-- A device: what it sends, and whether it has taken the command. -/
abbrev Device := Command → List Sink × Bool

/-- `IsValidATCommand`, of a command and its `strlen`. -/
def isValidATCommand (cmd : Command) : Bool :=
  (2 < cmd.length ∧ [CR, LF].isSuffixOf cmd) ∨
    1 < cmd.length ∧ (cmd.getLast? = some CR ∨ cmd.getLast? = some LF)

/-- A carriage return, a line feed or a space. -/
def isSpace (b : BYTE) : Bool := b = CR ∨ b = LF ∨ b = space

namespace Routing

variable (r : Routing)

/-- The loop of `IsEmptyString`, from an index down: it looks at the
character in front of the index, which for 0 is that in front of the
buffer. -/
def scanBack (str : Command) : ℕ → Bool
  | 0 => isSpace r.before
  | i + 1 => isSpace (str.getD i 0) && scanBack str i

def isEmptyString (str : Command) : Bool := str = [] ∨ r.scanBack str str.length

/-- A device that takes the commands that begin with a string. -/
def routeCommandsTo (startWith : String) (id : ℤ) : Device := fun data =>
  if isValidATCommand data ∧ startsWith data startWith then
    ([.client id] ++ if r.clientWrites id then [] else [.error], true)
  else ([], false)

def routeCommandsToConnectivity : Device := r.routeCommandsTo "AT^" idNv

def routeCommandsToAIMSConnectivity : Device := r.routeCommandsTo "AT#AIMS" idIms

def routeCommandsToRIL : Device := fun data =>
  if isValidATCommand data ∧ startsWith data "AT+VZWAPNE" then
    if r.dunMode = '1' ∧ r.rilOpens then ([.ril], true) else ([], false)
  else ([], false)

def routeCommandsToModem : Device := fun data =>
  if isValidATCommand data ∧ startsWith data "AT+" ∧ r.currentType = 0 then
    ([.modem] ++ if r.modemWrites then [] else [.error], true)
  else ([], false)

def routeCommandsFilterredHandler : Device := fun data =>
  if ([[CR, LF], [CR], [LF]].any fun ignore => data.map toLower = ignore.map toLower) ∨
      r.isEmptyString data then ([], true)
  else ([], false)

def routeCommandsDefaultHandler : Device := fun _ => ([.modem], r.modemWrites)

/-- `fpDestDevices`. -/
def destDevices : List Device :=
  if r.dunMode = '0' then [r.routeCommandsDefaultHandler]
  else [r.routeCommandsToConnectivity, r.routeCommandsToAIMSConnectivity, r.routeCommandsToRIL,
    r.routeCommandsToModem, r.routeCommandsFilterredHandler, r.routeCommandsDefaultHandler]

/-- The devices one after the other, until one takes the command. -/
def routeThrough (data : Command) : List Device → List Sink
  | [] => []
  | device :: devices =>
      let taken := device data
      taken.1 ++ if taken.2 then [] else routeThrough data devices

def routeCommands (data : Command) : List Sink := routeThrough data r.destDevices

end Routing

/-! ## What is to hold -/

/-- Nothing but carriage returns, line feeds and spaces. -/
def isBlank (cmd : Command) : Bool := cmd.all isSpace

/-- The line ends. -/
def isEnd (b : BYTE) : Bool := b = CR ∨ b = LF

/-- The commands that are not blank, without what they end in. -/
def nonBlank (cmds : List Command) : List Command :=
  (cmds.filter fun cmd => !isBlank cmd).map fun cmd => cmd.rdropWhile isEnd

/-- A text is its commands, but for a line feed that found no room behind
its carriage return. -/
def Keeps : List Command → List BYTE → Prop
  | [], text => text = []
  | cmd :: cmds, text => ∃ text', Keeps cmds text' ∧
      (text = cmd ++ text' ∨
        cmd.length = maxCmdBufSize ∧ cmd.getLast? = some CR ∧ text = cmd ++ LF :: text')

/-- **The assembly.** No write is beside the buffer; the commands are those
of one call; and nothing is lost: what is not a command yet is in the
buffer. -/
def Assembles (blocks : List (List BYTE)) : Prop :=
  ∃ s cmds cmds', Input.cleared.calls blocks = some (s, cmds) ∧
    Input.cleared.bufferedInput blocks.flatten = some (s, cmds') ∧
    nonBlank cmds = nonBlank cmds' ∧ (∀ cmd ∈ cmds, cmd.length ≤ maxCmdBufSize) ∧
    ∃ text, Keeps cmds text ∧ blocks.flatten = text ++ s.buffer.take s.c

/-- **The filter.** No blank command is sent anywhere. -/
def Filters (r : Routing) (blocks : List (List BYTE)) : Prop :=
  ∀ s cmds, Input.cleared.calls blocks = some (s, cmds) →
    ∀ cmd ∈ cmds, isBlank cmd = true → r.routeCommands cmd = []

/-- The lines of a text, each to its end or so long as a command may be. -/
def linesOf (text : List BYTE) : List (List BYTE) :=
  (feed isEnd maxCmdBufSize [] text).1

/-- **The condition for the filter**: no blank line of the text has a space,
or the byte in front of the buffer is one of those the filter skips. -/
def Spaceless (r : Routing) (text : List BYTE) : Prop :=
  isSpace r.before = true ∨ ∀ line ∈ linesOf text, isBlank line = true → space ∉ line

/-! ## The commands and the lines -/

/-- A line that ends in a carriage return, with the line feed behind it. -/
def withFeed (line : Command) : Command :=
  if line.length < maxCmdBufSize then line ++ [LF] else line

/-- **The commands are the lines**, but that a line feed may go with the
line in front of it. -/
inductive Grouped : List Command → List Command → Prop
  | nil : Grouped [] []
  | same (line : Command) {cmds lines : List Command} : Grouped cmds lines →
      Grouped (line :: cmds) (line :: lines)
  | pair (line : Command) {cmds lines : List Command} : line.getLast? = some CR →
      Grouped cmds lines → Grouped (withFeed line :: cmds) (line :: [LF] :: lines)

namespace Grouped

variable {cmds lines : List Command}

theorem append {cmds' lines' : List Command} (h : Grouped cmds lines) (h' : Grouped cmds' lines') :
    Grouped (cmds ++ cmds') (lines ++ lines') := by
  induction h with
  | nil => exact h'
  | same line _ ih => exact .same line ih
  | pair line hcr _ ih => exact .pair line hcr ih

theorem isBlank_withFeed (line : Command) : isBlank (withFeed line) = isBlank line := by
  have hfeed : isSpace LF = true := by decide
  unfold withFeed isBlank
  split
  · rw [all_append, all_cons, hfeed, all_nil, Bool.and_true, Bool.and_true]
  · rfl

theorem space_mem_withFeed {line : Command} : space ∈ withFeed line ↔ space ∈ line := by
  have hfeed : space ∉ [LF] := by decide
  unfold withFeed
  split
  · rw [mem_append, or_iff_left hfeed]
  · rfl

/-- The commands that are not blank are those of the lines. -/
theorem nonBlank_eq (h : Grouped cmds lines) : nonBlank cmds = nonBlank lines := by
  have hcons : ∀ cmd cmds, nonBlank (cmd :: cmds) =
      (if isBlank cmd then [] else [cmd.rdropWhile isEnd]) ++ nonBlank cmds := by
    intro cmd cmds
    unfold nonBlank
    by_cases hblank : isBlank cmd = true
    · simp [hblank]
    · simp [hblank]
  have hfeed : isEnd LF = true := by decide
  induction h with
  | nil => rfl
  | same line _ ih => rw [hcons, hcons, ih]
  | pair line _ _ ih =>
    have htrim : (withFeed line).rdropWhile isEnd = line.rdropWhile isEnd := by
      unfold withFeed
      split
      · rw [rdropWhile_concat_pos _ _ _ hfeed]
      · rfl
    have hnone : isBlank [LF] = true := by decide
    rw [hcons, hcons, hcons, isBlank_withFeed, htrim, ih, if_pos hnone, nil_append]

/-- And nothing of the lines is lost, but a line feed without room. -/
theorem keeps (h : Grouped cmds lines) (hlen : ∀ line ∈ lines, line.length ≤ maxCmdBufSize) :
    Keeps cmds lines.flatten ∧ ∀ cmd ∈ cmds, cmd.length ≤ maxCmdBufSize := by
  induction h with
  | nil => exact ⟨rfl, nofun⟩
  | same line _ ih =>
    obtain ⟨hline, hlines⟩ := forall_mem_cons.mp hlen
    obtain ⟨hkeeps, hcmds⟩ := ih hlines
    exact ⟨⟨_, hkeeps, Or.inl rfl⟩, forall_mem_cons.mpr ⟨hline, hcmds⟩⟩
  | pair line hcr _ ih =>
    obtain ⟨hline, hlines⟩ := forall_mem_cons.mp hlen
    obtain ⟨hkeeps, hcmds⟩ := ih (forall_mem_cons.mp hlines).2
    unfold withFeed
    split
    · next hroom =>
      refine ⟨⟨_, hkeeps, Or.inl ?_⟩, forall_mem_cons.mpr ⟨?_, hcmds⟩⟩
      · simp
      · rw [length_append]
        exact hroom
    · next hfull =>
      have hmax : line.length = maxCmdBufSize := by omega
      exact ⟨⟨_, hkeeps, Or.inr ⟨hmax, hcr, rfl⟩⟩, forall_mem_cons.mpr ⟨hline, hcmds⟩⟩

theorem spaceless_iff (h : Grouped cmds lines) :
    (∀ cmd ∈ cmds, isBlank cmd = true → space ∉ cmd) ↔
      ∀ line ∈ lines, isBlank line = true → space ∉ line := by
  induction h with
  | nil => exact Iff.rfl
  | same line _ ih => rw [forall_mem_cons, forall_mem_cons, ih]
  | pair line _ _ ih =>
    have hfeed : isBlank [LF] = true → space ∉ [LF] := fun _ => by decide
    rw [forall_mem_cons, forall_mem_cons, forall_mem_cons, ih, isBlank_withFeed,
      space_mem_withFeed, and_iff_right hfeed]

/-- Nothing but the end of a line. -/
def Bare (cmd : Command) : Prop := cmd = [CR, LF] ∨ cmd = [CR] ∨ cmd = [LF]

/-- A blank command without a space is the end of a line. -/
theorem bare (h : Grouped cmds lines)
    (hlines : ∀ line ∈ lines, ∃ front c, line = front ++ [c] ∧ ∀ b ∈ front, ¬ isEnd b = true)
    {cmd : Command} (hcmd : cmd ∈ cmds) (hblank : isBlank cmd = true) (hspace : space ∉ cmd) :
    Bare cmd := by
  have hline : ∀ line, (∃ front c, line = front ++ [c] ∧ ∀ b ∈ front, ¬ isEnd b = true) →
      isBlank line = true → space ∉ line → line = [CR] ∨ line = [LF] := by
    rintro _ ⟨front, c, rfl, hfront⟩ hblank hspace
    have hends : ∀ b ∈ front ++ [c], b = CR ∨ b = LF := by
      intro b hb
      have hb' : b = CR ∨ b = LF ∨ b = space :=
        of_decide_eq_true (all_eq_true.mp hblank b hb)
      rcases hb' with hcr | hlf | rfl
      · exact Or.inl hcr
      · exact Or.inr hlf
      · exact absurd hb hspace
    cases front with
    | nil => rcases hends c (mem_singleton_self c) with rfl | rfl <;> simp
    | cons b front =>
      have hend : isEnd b = true := decide_eq_true (hends b mem_cons_self)
      exact absurd hend (hfront b mem_cons_self)
  induction h with
  | nil => exact absurd hcmd not_mem_nil
  | same line _ ih =>
    obtain ⟨hfirst, hrest⟩ := forall_mem_cons.mp hlines
    rcases mem_cons.mp hcmd with rfl | hmem
    · exact Or.inr (hline _ hfirst hblank hspace)
    · exact ih hrest hmem
  | pair line hcr _ ih =>
    obtain ⟨hfirst, hrest⟩ := forall_mem_cons.mp hlines
    rcases mem_cons.mp hcmd with rfl | hmem
    · rw [isBlank_withFeed] at hblank
      rw [space_mem_withFeed] at hspace
      rcases hline _ hfirst hblank hspace with rfl | rfl
      · exact Or.inl rfl
      · exact absurd hcr (by decide)
    · exact ih (forall_mem_cons.mp hrest).2 hmem

end Grouped

/-! ## The loop -/

namespace Input

/-- The buffer with a line in it. -/
def hold (line : List BYTE) : Input :=
  ⟨line ++ List.replicate (maxCmdBufSize + 1 - line.length) 0, line.length⟩

variable {line data : List BYTE}

/-- **A write is in the buffer.** -/
theorem put_hold (hlen : line.length ≤ maxCmdBufSize) (b : BYTE) :
    put (hold line).buffer line.length b =
      some (line ++ [b] ++ List.replicate (maxCmdBufSize - line.length) 0) := by
  have hroom : maxCmdBufSize + 1 - line.length = maxCmdBufSize - line.length + 1 := by omega
  unfold hold
  rw [Block.put_behind (by rw [length_replicate]; omega), hroom]
  rfl

theorem put_zero (hlen : line.length ≤ maxCmdBufSize) :
    put (hold line).buffer line.length 0 = some (hold line).buffer := by
  have hroom : maxCmdBufSize + 1 - line.length = maxCmdBufSize - line.length + 1 := by omega
  rw [put_hold hlen]
  unfold hold
  rw [hroom, replicate_succ]
  simp

theorem hold_push (b : BYTE) (hlen : line.length ≤ maxCmdBufSize) :
    (⟨line ++ [b] ++ List.replicate (maxCmdBufSize - line.length) 0, line.length + 1⟩ : Input) =
      hold (line ++ [b]) := by
  have hroom : maxCmdBufSize + 1 - (line ++ [b]).length = maxCmdBufSize - line.length := by
    rw [length_append, length_singleton]
    omega
  unfold hold
  rw [hroom, length_append]
  rfl

theorem strlen_hold (hlen : line.length ≤ maxCmdBufSize) (hzero : 0 ∉ line) :
    (hold line).buffer.takeWhile (· ≠ 0) = line := by
  have hroom : maxCmdBufSize + 1 - line.length = maxCmdBufSize - line.length + 1 := by omega
  have hpos : ∀ b ∈ line, decide (b ≠ 0) = true :=
    fun b hb => decide_eq_true fun heq => hzero (heq ▸ hb)
  unfold hold
  rw [takeWhile_append_of_pos hpos, hroom, replicate_succ,
    takeWhile_cons_of_neg (by decide), append_nil]

/-- **A turn of the loop.** -/
theorem turn_spec (ch : BYTE) (pair : Bool) (line' : List BYTE)
    (hline : line.length < maxCmdBufSize)
    (hline' : line' = if pair ∧ line.length + 1 < maxCmdBufSize then line ++ [ch] ++ [LF]
      else line ++ [ch]) (hzero : 0 ∉ line') :
    (hold line).turn ch pair = some (if (ch = CR ∨ ch = LF) ∨ line'.length = maxCmdBufSize then
      (cleared, [line']) else (hold line', [])) := by
  have hputs : putPair (hold (line ++ [ch])) pair = some (hold line') ∧
      line'.length ≤ maxCmdBufSize := by
    have hlen : (line ++ [ch]).length = line.length + 1 := length_append
    unfold putPair
    have hc : (hold (line ++ [ch])).c = line.length + 1 := hlen
    rw [hc]
    by_cases hpair : pair = true ∧ line.length + 1 < maxCmdBufSize
    · rw [if_pos hpair] at hline' ⊢
      rw [← hlen, put_hold (by omega), hline']
      refine ⟨congrArg some (hold_push LF (by omega)), ?_⟩
      rw [length_append, hlen]
      exact hpair.2
    · rw [if_neg hpair] at hline' ⊢
      rw [hline']
      exact ⟨rfl, by omega⟩
  obtain ⟨hpair, hlen⟩ := hputs
  have hfirst : put (hold line).buffer (hold line).c ch =
      some (line ++ [ch] ++ List.replicate (maxCmdBufSize - line.length) 0) := put_hold (by omega) ch
  have hlast : put (hold line').buffer (hold line').c 0 = some (hold line').buffer := put_zero hlen
  have hpush : (⟨line ++ [ch] ++ List.replicate (maxCmdBufSize - line.length) 0,
      (hold line).c + 1⟩ : Input) = hold (line ++ [ch]) := hold_push ch (by omega)
  unfold turn
  rw [hfirst, bind_eq_bind, bind_some, hpush, hpair, bind_eq_bind,
    bind_some, hlast, bind_some, strlen_hold hlen hzero]
  have hc : (hold line').c = line'.length := rfl
  rw [hc]
  split
  · rfl
  · rfl

theorem loop_pair (s : Input) : s.loop (CR :: LF :: data) =
    (s.turn CR true).bind fun r => (r.1.loop data).bind fun r' => some (r'.1, r.2 ++ r'.2) :=
  if_pos ⟨rfl, rfl⟩

theorem loop_single (s : Input) {ch : BYTE} (h : ¬ (ch = CR ∧ data.head? = some LF)) :
    s.loop (ch :: data) =
      (s.turn ch false).bind fun r => (r.1.loop data).bind fun r' => some (r'.1, r.2 ++ r'.2) := by
  cases data with
  | nil =>
    show s.turn ch false = _
    cases s.turn ch false with
    | none => rfl
    | some r => simp [loop]
  | cons next data => exact if_neg fun hpair => h ⟨hpair.1, congrArg some hpair.2⟩

/-- **The loop hands on the lines** of what it has and gets. -/
theorem loop_spec (n : ℕ) : ∀ {data line : List BYTE}, data.length ≤ n →
    Splitter.Open isEnd maxCmdBufSize line → 0 ∉ line → 0 ∉ data → ∃ cmds,
      (hold line).loop data = some (hold (feed isEnd maxCmdBufSize line data).2, cmds) ∧
        Grouped cmds (feed isEnd maxCmdBufSize line data).1 := by
  have hempty : Splitter.Open isEnd maxCmdBufSize ([] : List BYTE) := ⟨by decide, nofun⟩
  induction n with
  | zero =>
    intro data line hlen _ _ _
    obtain rfl : data = [] := eq_nil_of_length_eq_zero (Nat.le_zero.mp hlen)
    exact ⟨[], rfl, .nil⟩
  | succ n ih =>
    intro data line hlen hopen hline hdata
    cases data with
    | nil => exact ⟨[], rfl, .nil⟩
    | cons ch data =>
      have hch : 0 ∉ line ++ [ch] := by
        rw [mem_append, mem_singleton]
        rintro (hmem | rfl)
        · exact hline hmem
        · exact hdata mem_cons_self
      have hrest : 0 ∉ data := fun hmem => hdata (mem_cons_of_mem _ hmem)
      by_cases hpair : ch = CR ∧ data.head? = some LF
      · -- the line feed goes with the carriage return
        obtain ⟨rfl, hhead⟩ := hpair
        obtain ⟨data, rfl⟩ : ∃ rest, data = LF :: rest := by
          cases data with
          | nil => cases hhead
          | cons next rest => exact ⟨rest, congrArg (· :: rest) (some.inj hhead)⟩
        have hzero : 0 ∉ withFeed (line ++ [CR]) := by
          unfold withFeed
          split
          · rw [mem_append]
            rintro (hmem | hmem)
            · exact hch hmem
            · exact absurd hmem (by decide)
          · exact hch
        have hturn := turn_spec CR true (withFeed (line ++ [CR])) hopen.short (by simp [withFeed]) hzero
        rw [if_pos (Or.inl (Or.inl rfl))] at hturn
        have hshort : data.length ≤ n := by
          simp only [length_cons] at hlen
          omega
        obtain ⟨cmds, hloop, hgrouped⟩ := ih hshort hempty nofun
          fun hmem => hrest (mem_cons_of_mem _ hmem)
        rw [loop_pair, hturn, feed_cons_of_ends (ends_of_stop line (by decide)),
          feed_cons_of_ends (ends_of_stop [] (by decide))]
        refine ⟨withFeed (line ++ [CR]) :: cmds, ?_, .pair _ (by simp) hgrouped⟩
        have hcleared : cleared.loop data = _ := hloop
        rw [bind_some, hcleared]
        rfl
      · have hturn := turn_spec ch false (line ++ [ch]) hopen.short
          (by simp) hch
        have hends : (ch = CR ∨ ch = LF) ∨ (line ++ [ch]).length = maxCmdBufSize ↔
            ends isEnd maxCmdBufSize line ch = true := by
          simp [ends, isEnd]
        have hshort : data.length ≤ n := Nat.le_of_succ_le_succ hlen
        rw [loop_single _ hpair, hturn, bind_some]
        by_cases hflush : ends isEnd maxCmdBufSize line ch = true
        · obtain ⟨cmds, hloop, hgrouped⟩ := ih hshort hempty nofun hrest
          have hcleared : cleared.loop data = _ := hloop
          rw [if_pos (hends.mpr hflush), feed_cons_of_ends hflush, hcleared]
          exact ⟨(line ++ [ch]) :: cmds, rfl, .same _ hgrouped⟩
        · obtain ⟨cmds, hloop, hgrouped⟩ := ih hshort (hopen.push hflush) hch hrest
          rw [if_neg (mt hends.mp hflush), feed_cons_of_not_ends hflush, hloop]
          exact ⟨cmds, rfl, hgrouped⟩

theorem bufferedInput_spec (hopen : Splitter.Open isEnd maxCmdBufSize line) (hline : 0 ∉ line)
    (hdata : 0 ∉ data) : ∃ cmds, (hold line).bufferedInput data =
      some (hold (feed isEnd maxCmdBufSize line data).2, cmds) ∧
        Grouped cmds (feed isEnd maxCmdBufSize line data).1 := by
  unfold bufferedInput
  split
  · next hnone =>
    rcases hnone with rfl | hhead
    · exact ⟨[], rfl, .nil⟩
    · exact absurd (mem_of_mem_head? hhead) hdata
  · exact loop_spec data.length (Nat.le_refl _) hopen hline hdata

/-- **However the text is cut.** -/
theorem calls_spec {blocks : List (List BYTE)} (hopen : Splitter.Open isEnd maxCmdBufSize line)
    (hline : 0 ∉ line) (hblocks : 0 ∉ blocks.flatten) : ∃ cmds, (hold line).calls blocks =
      some (hold (feed isEnd maxCmdBufSize line blocks.flatten).2, cmds) ∧
        Grouped cmds (feed isEnd maxCmdBufSize line blocks.flatten).1 := by
  induction blocks generalizing line with
  | nil => exact ⟨[], rfl, .nil⟩
  | cons data blocks ih =>
    rw [flatten_cons, mem_append, not_or] at hblocks
    obtain ⟨cmds, hinput, hgrouped⟩ := bufferedInput_spec hopen hline hblocks.1
    have hopen' : Splitter.Open isEnd maxCmdBufSize
        (feed isEnd maxCmdBufSize line data).2 :=
      (feed_lines (by decide) hopen).2
    have hline' : 0 ∉ (feed isEnd maxCmdBufSize line data).2 := by
      intro hmem
      have hkept : (feed isEnd maxCmdBufSize line data).1.flatten ++
          (feed isEnd maxCmdBufSize line data).2 = line ++ data := flatten_feed
      rcases mem_append.mp (hkept ▸ mem_append_right _ hmem) with hold | hnew
      · exact hline hold
      · exact hblocks.1 hnew
    obtain ⟨cmds', hcalls, hgrouped'⟩ := ih hopen' hline' hblocks.2
    rw [flatten_cons, feed_append]
    refine ⟨cmds ++ cmds', ?_, hgrouped.append hgrouped'⟩
    unfold calls
    rw [hinput, bind_eq_bind, bind_some]
    dsimp only
    rw [hcalls]
    rfl

end Input

/-- **The assembly**, for every text and every way it is cut. -/
theorem assembles_of_noZero {blocks : List (List BYTE)} (hzero : 0 ∉ blocks.flatten) :
    Assembles blocks := by
  have hempty : Splitter.Open isEnd maxCmdBufSize ([] : List BYTE) := ⟨by decide, nofun⟩
  obtain ⟨cmds, hcalls, hgrouped⟩ := Input.calls_spec hempty nofun hzero
  obtain ⟨cmds', hinput, hgrouped'⟩ := Input.bufferedInput_spec hempty nofun hzero
  have hlen : ∀ line ∈ (feed isEnd maxCmdBufSize [] blocks.flatten).1,
      line.length ≤ maxCmdBufSize := by
    intro line hline
    obtain ⟨front, c, rfl, hfront⟩ := (feed_lines (by decide) hempty).1 line hline
    rw [length_append]
    exact hfront.short
  refine ⟨_, cmds, cmds', hcalls, hinput, hgrouped.nonBlank_eq.trans hgrouped'.nonBlank_eq.symm,
    (hgrouped.keeps hlen).2, _, (hgrouped.keeps hlen).1, ?_⟩
  have hbuffer : ∀ line, (Input.hold line).buffer.take (Input.hold line).c = line :=
    fun line => take_left
  rw [hbuffer, flatten_feed]
  rfl

/-! ## The devices a blank command comes to -/

namespace Routing

variable (r : Routing) {cmd : Command}

theorem isSpace_of_mem (hblank : isBlank cmd = true) {b : BYTE} (hb : b ∈ cmd) :
    b = CR ∨ b = LF ∨ b = space :=
  of_decide_eq_true (all_eq_true.mp hblank b hb)

/-- A blank command does not begin with an `A`. -/
theorem startsWith_blank (hblank : isBlank cmd = true) {str : String}
    (hstr : ((bytesOf str).map toLower).head? = some 0x61) : startsWith cmd str = false := by
  refine decide_eq_false fun heq => ?_
  rw [← heq, head?_map] at hstr
  obtain ⟨b, hb, hlower⟩ := map_eq_some_iff.mp hstr
  rcases isSpace_of_mem hblank (mem_of_mem_take (mem_of_mem_head? hb)) with rfl | rfl | rfl
  all_goals exact absurd hlower (by decide)

theorem scanBack_blank (hblank : isBlank cmd = true) {i : ℕ} (hi : i ≤ cmd.length) :
    r.scanBack cmd i = isSpace r.before := by
  induction i with
  | zero => rfl
  | succ i ih =>
    have hspace : isSpace (cmd.getD i 0) = true := by
      rw [getD_eq_getElem _ _ hi]
      exact all_eq_true.mp hblank _ (getElem_mem hi)
    unfold scanBack
    rw [hspace, Bool.true_and, ih (Nat.le_of_succ_le hi)]

/-- **A blank command** is dropped by the filter, or goes to the modem. -/
theorem routeCommands_blank (hblank : isBlank cmd = true) :
    r.routeCommands cmd = if (r.routeCommandsFilterredHandler cmd).2 then [] else [.modem] := by
  have hnv : startsWith cmd "AT^" = false := startsWith_blank hblank (by decide)
  have hims : startsWith cmd "AT#AIMS" = false := startsWith_blank hblank (by decide)
  have hril : startsWith cmd "AT+VZWAPNE" = false := startsWith_blank hblank (by decide)
  have hmodem : startsWith cmd "AT+" = false := startsWith_blank hblank (by decide)
  unfold routeCommands destDevices
  rw [if_neg r.dunMode_ne]
  simp only [routeThrough, routeCommandsToConnectivity, routeCommandsToAIMSConnectivity,
    routeCommandsTo, routeCommandsToRIL, routeCommandsToModem, hnv, hims, hril, hmodem,
    Bool.false_eq_true, and_false, false_and, if_false, nil_append]
  unfold routeCommandsFilterredHandler
  split
  · rfl
  · simp only [Bool.false_eq_true, if_false, ite_self]
    rfl

/-- **Which blank commands are dropped.** -/
theorem routeCommands_eq_nil_iff (hblank : isBlank cmd = true)
    (hbare : space ∉ cmd → Grouped.Bare cmd) :
    r.routeCommands cmd = [] ↔ isSpace r.before = true ∨ space ∉ cmd := by
  rw [r.routeCommands_blank hblank]
  unfold routeCommandsFilterredHandler
  by_cases hspace : space ∈ cmd
  · -- it is none of the three, and the scan decides
    have hnone : ([[CR, LF], [CR], [LF]].any fun ignore =>
        cmd.map toLower = ignore.map toLower) = false := by
      refine any_eq_false.mpr fun ignore hignore heq => ?_
      have hmem : toLower space ∈ ignore.map toLower :=
        of_decide_eq_true heq ▸ mem_map_of_mem hspace
      have hothers : ∀ ignore ∈ ([[CR, LF], [CR], [LF]] : List Command),
          toLower space ∉ ignore.map toLower := by decide
      exact hothers ignore hignore hmem
    have hempty : r.isEmptyString cmd = isSpace r.before := by
      unfold isEmptyString
      rw [r.scanBack_blank hblank (Nat.le_refl _)]
      simp [ne_nil_of_mem hspace]
    rw [hnone, hempty]
    by_cases hbefore : isSpace r.before = true
    · simp [hbefore]
    · simp [hbefore, hspace]
  · refine iff_of_true ?_ (Or.inr hspace)
    have hany : ([[CR, LF], [CR], [LF]].any fun ignore =>
        cmd.map toLower = ignore.map toLower) = true := by
      rcases hbare hspace with rfl | rfl | rfl
      all_goals decide
    rw [if_pos (Or.inl hany)]
    rfl

end Routing

/-- **The commands from USB.** For every text without zeros, and every way
it is cut: the commands are assembled, and no blank one is sent anywhere
exactly when the condition holds. -/
theorem assembles_iff (r : Routing) {blocks : List (List BYTE)} (hzero : 0 ∉ blocks.flatten) :
    Assembles blocks ∧ (Filters r blocks ↔ Spaceless r blocks.flatten) := by
  refine ⟨assembles_of_noZero hzero, ?_⟩
  have hempty : Splitter.Open isEnd maxCmdBufSize ([] : List BYTE) := ⟨by decide, nofun⟩
  obtain ⟨cmds, hcalls, hgrouped⟩ := Input.calls_spec hempty nofun hzero
  have hlines : ∀ line ∈ linesOf blocks.flatten,
      ∃ front c, line = front ++ [c] ∧ ∀ b ∈ front, ¬ isEnd b = true := by
    intro line hline
    obtain ⟨front, c, heq, hfront⟩ := (feed_lines (by decide) hempty).1 line hline
    exact ⟨front, c, heq, hfront.free⟩
  have hroute : ∀ cmd ∈ cmds, isBlank cmd = true →
      (r.routeCommands cmd = [] ↔ isSpace r.before = true ∨ space ∉ cmd) := fun cmd hcmd hblank =>
    r.routeCommands_eq_nil_iff hblank fun hspace => hgrouped.bare hlines hcmd hblank hspace
  have hcleared : Input.cleared.calls blocks = _ := hcalls
  have hfilters : Filters r blocks ↔
      ∀ cmd ∈ cmds, isBlank cmd = true → r.routeCommands cmd = [] := by
    constructor
    · exact fun h => h _ _ hcleared
    · intro h s cmds' hcalls'
      obtain ⟨-, rfl⟩ := Prod.mk.inj (some.inj (hcleared.symm.trans hcalls'))
      exact h
  rw [hfilters]
  unfold Spaceless linesOf
  rw [← hgrouped.spaceless_iff]
  constructor
  · intro h
    by_cases hbefore : isSpace r.before = true
    · exact Or.inl hbefore
    · exact Or.inr fun cmd hcmd hblank =>
        ((hroute cmd hcmd hblank).mp (h cmd hcmd hblank)).resolve_left hbefore
  · intro h cmd hcmd hblank
    exact (hroute cmd hcmd hblank).mpr (h.imp_right fun hnone => hnone cmd hcmd hblank)

/-- DUN mode, with a zero in front of the buffer. -/
def dun : Routing where
  dunMode := '1'
  dunMode_ne := by decide
  currentType := typeNormal
  modemWrites := true
  clientWrites := fun _ => false
  rilOpens := false
  before := 0

/-- A command, and a blank line, cut between their ends. -/
theorem assembles_cut :
    let blocks := [[0x41, CR], [LF, CR], [LF]]
    Assembles blocks ∧ (Filters dun blocks ↔ Spaceless dun blocks.flatten) :=
  assembles_iff dun (by decide)

/-- **A line of spaces goes to the modem.** -/
theorem not_filters_space : Assembles [[space, CR]] ∧ ¬ Filters dun [[space, CR]] := by
  refine ⟨assembles_of_noZero (by decide), fun h => ?_⟩
  have hempty : Splitter.Open isEnd maxCmdBufSize ([] : List BYTE) := ⟨by decide, nofun⟩
  have hzero : 0 ∉ ([[space, CR]] : List (List BYTE)).flatten := by decide
  obtain ⟨cmds, hcalls, hgrouped⟩ := Input.calls_spec hempty nofun hzero
  have hlines : (feed isEnd maxCmdBufSize [] [[space, CR]].flatten).1 = [[space, CR]] := by
    decide
  rw [hlines] at hgrouped
  cases hgrouped with
  | same _ hrest =>
    exact absurd (h _ _ hcalls [space, CR] mem_cons_self rfl) (by decide)

end ExynosVendor.Vcd
