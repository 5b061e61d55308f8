import ExynosVendor.Nfc.Config
import ExynosVendor.Common.Block
import ExynosVendor.Common.Word

/-!
# The values of the configuration

`get_config_byteArry` and `get_config_string` of `util.cc`, behind the search.
Both read line by line while there is room, and a line is written as long as it
has values: the room is looked at between the lines only. `fgets` cuts a line of
more than 254 characters, and what is cut off does not continue it.

`getConfig_works_iff` says when all writes stay in their buffers and the values
that come out are the listed ones.
-/

namespace ExynosVendor.Nfc.Config

open List Option

/-! ## Numbers -/

/-- The value of a digit. -/
def digit (base : ℕ) (c : BitVec 8) : Option ℕ :=
  let v :=
    if 0x30 ≤ c ∧ c ≤ 0x39 then c.toNat - 0x30
    else if 0x61 ≤ c ∧ c ≤ 0x7A then c.toNat - 0x57
    else if 0x41 ≤ c ∧ c ≤ 0x5A then c.toNat - 0x37
    else base
  if v < base then some v else none

/-- The digits in front. -/
def digits (base : ℕ) : ℕ → Text → ℕ × Text
  | n, [] => (n, [])
  | n, c :: s =>
      match digit base c with
      | some d => digits base (base * n + d) s
      | none => (n, c :: s)

/-- The sign in front: it is a minus. -/
def sign : Text → Bool × Text
  | [] => (false, [])
  | c :: s => if c = 0x2D then (true, s) else if c = 0x2B then (false, s) else (false, c :: s)

/-- Behind a `0x` of a number. -/
def skipHex (base : ℕ) : Text → Text
  | zero :: x :: d :: s =>
      if base = 16 ∧ zero = 0x30 ∧ (x = 0x78 ∨ x = 0x58) ∧ (digit 16 d).isSome then d :: s
      else zero :: x :: d :: s
  | s => s

/-- `strtol` into a long of 64 bits: the value and `endp`, if there is a number. -/
def strtol (base : ℕ) (p : Text) : Option (ℤ × Text) :=
  let s := sign (skipSpace p)
  let number := skipHex base s.2
  if (number.head?.bind (digit base)).isNone then none
  else
    let n := digits base 0 number
    let val : ℤ := if s.1 then -n.1 else n.1
    some (max (-2 ^ 63) (min val (2 ^ 63 - 1)), n.2)

/-! ## Lines -/

/-- The base of a number that begins so. -/
def baseOf (p : Text) : ℕ := if p.head? = some 0x30 ∧ p.tail.head? = some 0x78 then 16 else 10

/-- The inner loop of `get_config_byteArry`. Nothing behind `goto fail_free`. -/
def byteLine : ℕ → Text → Text → ℕ → Option (Option (Text × ℕ))
  | 0, _, _, _ => none
  | fuel + 1, p, buffer, count =>
      if p = [] ∨ p.head? = some newline ∨ p.head? = some backslash then some (some (buffer, count))
      else
        match strtol (baseOf p) p with
        | none => some none
        | some (val, endp) =>
            if val < 0 ∨ 0xFF < val then some none
            else do
              let buffer ← Block.put buffer count (BitVec.ofInt 8 val)
              byteLine fuel (skipToken endp) buffer (count + 1)

def quote : BitVec 8 := 0x22

/-- The inner loops of `get_config_string`, inside a string and outside. -/
def stringLine : Bool → Text → Text → ℕ → Option (Option (Text × ℕ))
  | false, [], buffer, count => some (some (buffer, count))
  | false, c :: p, buffer, count => stringLine (c = quote) p buffer count
  | true, [], _, _ => some none
  | true, c :: p, buffer, count =>
      if c = quote then stringLine false p buffer count
      else if c = newline ∨ c = backslash then some none
      else do
        let buffer ← Block.put buffer count c
        stringLine true p buffer (count + 1)

/-- The outer loop of both, over what `fgets` gives. -/
def readLines (line : Text → Text → ℕ → Option (Option (Text × ℕ))) (limit : ℕ) :
    Bool → List Text → Text → ℕ → Option (Option (Text × ℕ))
  | readmore, [], buffer, count =>
      if count < limit ∧ readmore then some none else some (some (buffer, count))
  | readmore, data :: lines, buffer, count =>
      if count < limit ∧ readmore then do
        let readmore ← willBeContinuous (string data) 256
        match ← line (string data) buffer count with
        | none => some none
        | some (buffer, count) => readLines line limit readmore lines buffer count
      else some (some (buffer, count))

/-! ## The functions -/

def prtbSize : ℕ := 256 * 5 + 1

/-- What is in the buffers before they are written. -/
structure Before (size : ℕ) where
  /-- The buffer of the caller. -/
  dest : Text
  length_dest : dest.length = size
  /-- The temporary buffer of `malloc`. -/
  buffer : Text
  length_buffer : buffer.length = size
  /-- `prtb`. -/
  prtb : Text
  length_prtb : prtb.length = prtbSize

def hexDigit (n : ℕ) : BitVec 8 := BitVec.ofNat 8 (if n < 10 then 0x30 + n else 0x37 + n)

/-- `sprintf` of a byte as `"0x%02X "`, with the zero behind. -/
def sprintfByte (b : BitVec 8) : Text :=
  [0x30, 0x78, hexDigit (b.toNat / 16), hexDigit (b.toNat % 16), 0x20, 0]

/-- The loop that prints the bytes. -/
def printBytes (buffer : Text) : ℕ → ℕ → Text → Option Text
  | 0, _, prtb => some prtb
  | turns + 1, i, prtb => do
      let byte ← Block.load buffer i 1
      let prtb ← Block.store prtb (i * 5) (sprintfByte (byte.headD 0))
      printBytes buffer turns (i + 1) prtb

/-- `OSI_logd` of a string. -/
def osiLogd (debugLevel : ℤ) (buffer : Text) : Option Unit :=
  if 1 ≤ debugLevel ∧ 0 ∉ buffer then none else some ()

section Functions

variable (file csc field : Text) (debugLevel : ℤ) {size : ℕ} (mem : Before size) (allocated : Bool)

/-- `get_config_byteArry` behind its loop. -/
def finishByteArry : Option (Text × ℕ) → Option (ℤ × Text)
  | none => some (0, mem.dest)
  | some (buffer, count) => do
      let prtb ← printBytes buffer count 0 mem.prtb
      osiLogd debugLevel prtb
      let bytes ← Block.load buffer 0 count
      let dest ← Block.store mem.dest 0 bytes
      some (toInt count, dest)

/-- `get_config_byteArry`: the count, and the array. -/
def getConfigByteArry : Option (ℤ × Text) :=
  if size < 1 then some (0, mem.dest)
  else do
    let found ← findByName file (setUserPrefix csc) field
    match found.place with
    | none => some (0, mem.dest)
    | some pos =>
        if ¬ allocated then some (0, mem.dest)
        else do
          let line := fun data => byteLine (data.length + 1) (skipToken data)
          let r ← readLines line size true (fgets 255 (file.drop pos)) mem.buffer 0
          finishByteArry debugLevel mem r

/-- `get_config_string` behind its loop, where `p` is null. -/
def finishString : Option (Text × ℕ) → Option (ℤ × Text)
  | none => some (0, mem.dest)
  | some (buffer, count) => do
      let buffer ← Block.put buffer count 0
      if count = size then some (0, mem.dest)
      else do
        let bytes ← Block.load buffer 0 (count + 1)
        let dest ← Block.store mem.dest 0 bytes
        some (toInt (count + 1), dest)

/-- `get_config_string`: the count, and the string. -/
def getConfigString : Option (ℤ × Text) :=
  if size < 1 then some (0, mem.dest)
  else do
    let found ← findByName file (setUserPrefix csc) field
    match found.place with
    | none => some (0, mem.dest)
    | some pos =>
        if ¬ allocated then some (0, mem.dest)
        else do
          let r ← readLines (stringLine false) (size - 1) true (fgets 255 (file.drop pos))
            mem.buffer 0
          finishString mem r

end Functions

/-! ## What a line lists -/

/-- The bytes of a line up to one that is none, and whether there is none of these. -/
def byteValues : ℕ → Text → Text × Bool
  | 0, _ => ([], false)
  | fuel + 1, p =>
      if p = [] ∨ p.head? = some newline ∨ p.head? = some backslash then ([], true)
      else
        match strtol (baseOf p) p with
        | none => ([], false)
        | some (val, endp) =>
            if val < 0 ∨ 0xFF < val then ([], false)
            else
              let rest := byteValues fuel (skipToken endp)
              (BitVec.ofInt 8 val :: rest.1, rest.2)

/-- The bytes that a line lists. -/
def bytesOf (line : Text) : Text × Bool := byteValues (line.length + 1) (skipToken line)

def stringValues : Bool → Text → Text × Bool
  | false, [] => ([], true)
  | false, c :: p => stringValues (c = quote) p
  | true, [] => ([], false)
  | true, c :: p =>
      if c = quote then stringValues false p
      else if c = newline ∨ c = backslash then ([], false)
      else
        let rest := stringValues true p
        (c :: rest.1, rest.2)

/-- The characters between the quotes of a line. -/
def charsOf (line : Text) : Text × Bool := stringValues false line

/-- **A line of the code writes what it lists**, and faults where that is more
than the room. -/
def Writes (line : Text → Text → ℕ → Option (Option (Text × ℕ))) (values : Text → Text × Bool) :
    Prop :=
  ∀ data got room : Text, line data (got ++ room) got.length =
    if (values data).1.length ≤ room.length then
      some (if (values data).2 then
        some (got ++ (values data).1 ++ room.drop (values data).1.length,
          (got ++ (values data).1).length)
      else none)
    else none

theorem writes_nil {got room : Text} (ok : Bool) :
    some (if ok then some (got ++ room, got.length) else none) =
      if ([] : Text).length ≤ room.length then
        some (if ok then some (got ++ [] ++ room.drop ([] : Text).length, (got ++ []).length)
        else none)
      else none := by
  rw [length_nil, if_pos (Nat.zero_le _), append_nil, drop_zero]

/-- One value, and the rest. -/
theorem writes_cons {k : Text → ℕ → Option (Option (Text × ℕ))} {rest : Text × Bool} {c : BitVec 8}
    (got room : Text)
    (h : ∀ got room : Text, k (got ++ room) got.length =
      if rest.1.length ≤ room.length then
        some (if rest.2 then
          some (got ++ rest.1 ++ room.drop rest.1.length, (got ++ rest.1).length) else none)
      else none) :
    ((Block.put (got ++ room) got.length c).bind fun buffer => k buffer (got.length + 1)) =
      if (c :: rest.1).length ≤ room.length then
        some (if rest.2 then
          some (got ++ (c :: rest.1) ++ room.drop (c :: rest.1).length,
            (got ++ (c :: rest.1)).length) else none)
      else none := by
  rcases room with _ | ⟨r, room⟩
  · rw [append_nil, Block.put_eq_none (Nat.le_refl _), if_neg (by simp)]
    rfl
  · have hput : Block.put (got ++ r :: room) got.length c = some ((got ++ [c]) ++ room) := by
      rw [Block.put_at rfl, append_assoc, singleton_append]
    have hlen : got.length + 1 = (got ++ [c]).length := by
      rw [length_append, length_singleton]
    rw [hput, bind_some, hlen, h (got ++ [c]) room]
    simp only [length_cons, drop_succ_cons, append_assoc, singleton_append,
      Nat.add_le_add_iff_right]

theorem stringLine_writes (inside : Bool) (data got room : Text) :
    stringLine inside data (got ++ room) got.length =
      if (stringValues inside data).1.length ≤ room.length then
        some (if (stringValues inside data).2 then
          some (got ++ (stringValues inside data).1 ++
              room.drop (stringValues inside data).1.length,
            (got ++ (stringValues inside data).1).length) else none)
      else none := by
  induction data generalizing inside got room with
  | nil =>
    cases inside
    · exact writes_nil true
    · exact writes_nil false
  | cons c data ih =>
    cases inside
    · exact ih (c = quote) got room
    · rw [stringLine, stringValues]
      split
      · exact ih false got room
      · split
        · exact writes_nil false
        · exact writes_cons got room fun got room => ih true got room

theorem writes_stringLine : Writes (stringLine false) charsOf := fun data got room =>
  stringLine_writes false data got room

/-! ## Numbers are not empty -/

theorem length_digits_le (base n : ℕ) (s : Text) : (digits base n s).2.length ≤ s.length := by
  induction s generalizing n with
  | nil => exact Nat.le_refl _
  | cons c s ih =>
    rw [digits]
    split
    · exact Nat.le_succ_of_le (ih _)
    · exact Nat.le_refl _

theorem length_sign_le (s : Text) : (sign s).2.length ≤ s.length := by
  unfold sign
  split
  · exact Nat.le_refl _
  · split
    · exact Nat.le_succ _
    · split
      · exact Nat.le_succ _
      · exact Nat.le_refl _

theorem length_skipHex_le (base : ℕ) (s : Text) : (skipHex base s).length ≤ s.length := by
  unfold skipHex
  split
  · split
    · exact Nat.le_add_right _ 2
    · exact Nat.le_refl _
  · exact Nat.le_refl _

/-- **A number takes a character.** -/
theorem length_of_strtol {base : ℕ} {p endp : Text} {val : ℤ}
    (h : strtol base p = some (val, endp)) :
    endp.length < p.length := by
  unfold strtol at h
  dsimp only at h
  split at h
  · contradiction
  · rename_i hdigit
    obtain ⟨-, rfl⟩ := Prod.mk.inj (some.inj h)
    have hspace : (skipSpace p).length ≤ p.length := (dropWhile_sublist _).length_le
    have hsign := length_sign_le (skipSpace p)
    have hhex := length_skipHex_le base (sign (skipSpace p)).2
    rcases hnumber : skipHex base (sign (skipSpace p)).2 with _ | ⟨c, s⟩
    · rw [hnumber] at hdigit
      exact absurd rfl hdigit
    · rw [hnumber, head?_cons, bind_some] at hdigit
      obtain ⟨d, hd⟩ : ∃ d, digit base c = some d := by
        rcases hd : digit base c with _ | d
        · exact absurd (hd ▸ rfl) hdigit
        · exact ⟨d, rfl⟩
      rw [hnumber, length_cons] at hhex
      rw [digits, hd]
      have := length_digits_le base (base * 0 + d) s
      dsimp only
      omega

theorem byteLine_writes {fuel : ℕ} {data : Text} (hfuel : data.length < fuel) (got room : Text) :
    byteLine fuel data (got ++ room) got.length =
      if (byteValues fuel data).1.length ≤ room.length then
        some (if (byteValues fuel data).2 then
          some (got ++ (byteValues fuel data).1 ++ room.drop (byteValues fuel data).1.length,
            (got ++ (byteValues fuel data).1).length) else none)
      else none := by
  induction fuel generalizing data got room with
  | zero => exact absurd hfuel (Nat.not_lt_zero _)
  | succ fuel ih =>
    rw [byteLine, byteValues]
    split
    · exact writes_nil true
    · split
      · exact writes_nil false
      · rename_i val endp hval
        split
        · exact writes_nil false
        · have hskip : (skipToken endp).length ≤ endp.length := (dropWhile_sublist _).length_le
          have hend := length_of_strtol hval
          exact writes_cons got room fun got room => ih (by omega) got room

theorem writes_byteLine :
    Writes (fun data => byteLine (data.length + 1) (skipToken data)) bytesOf := fun _ got room =>
  byteLine_writes (Nat.lt_succ_of_le (dropWhile_sublist _).length_le) got room

/-! ## What the lines list -/

section Lines

variable (values : Text → Text × Bool) (limit size : ℕ)

/-- **The listed values**: those of a line and of the lines that continue it. -/
def listed : List Text → Option Text
  | [] => none
  | line :: lines =>
      if (values line).2 then
        if Continues line then (listed lines).map ((values line).1 ++ ·) else some (values line).1
      else none

/-- The same, behind others and with no line once there are enough. -/
def listedWithin (got : Text) : List Text → Option Text
  | [] => if got.length < limit then none else some got
  | line :: lines =>
      if got.length < limit then
        if (values line).2 then
          if Continues line then listedWithin (got ++ (values line).1) lines
          else some (got ++ (values line).1)
        else none
      else some got

/-- **Each line that is read has room**: it is read where the lines in front go
on and list less than enough. -/
def Room (count : ℕ) : List Text → Prop
  | [] => True
  | line :: lines => count < limit →
      line ≠ [] ∧ count + (values line).1.length ≤ size ∧
        ((values line).2 = true → Continues line = true →
          Room (count + (values line).1.length) lines)

variable {values limit size}

theorem willBeContinuous_nil : willBeContinuous [] 256 = none := by decide

variable {line : Text → Text → ℕ → Option (Option (Text × ℕ))}

variable {lines : List Text}

theorem readLines_enough {buffer : Text} {count : ℕ} {readmore : Bool}
    (h : ¬ (count < limit ∧ readmore = true)) :
    readLines line limit readmore lines buffer count = some (some (buffer, count)) := by
  rcases lines with _ | ⟨data, lines⟩
  · exact if_neg h
  · exact if_neg h

theorem readLines_cons {data buffer : Text} {count : ℕ} (hroom : count < limit)
    (hne : string data ≠ []) (hshort : (string data).length < 256) :
    readLines line limit true (data :: lines) buffer count =
      (line (string data) buffer count).bind fun r =>
        match r with
        | none => some none
        | some (buffer, count) =>
            readLines line limit (Continues (string data)) lines buffer count := by
  rw [readLines, if_pos ⟨hroom, rfl⟩, willBeContinuous_eq hne hshort]
  rfl

/-- What the loop leaves: nothing, or the values in front of the buffer's rest. -/
def Left (size : ℕ) : Option Text → Option (Text × ℕ) → Prop
  | none, r => r = none
  | some all, r => ∃ back, r = some (all ++ back, all.length) ∧ all.length + back.length = size

/-- **The loop lists within**, where each line has room. -/
theorem readLines_eq (hline : Writes line values)
    (hshort : ∀ data ∈ lines, (string data).length < 256) {got room : Text}
    (hsize : got.length + room.length = size)
    (h : Room values limit size got.length (lines.map string)) :
    ∃ r, readLines line limit true lines (got ++ room) got.length = some r ∧
      Left size (listedWithin values limit got (lines.map string)) r := by
  induction lines generalizing got room with
  | nil =>
    rw [map_nil, listedWithin, readLines]
    by_cases hroom : got.length < limit
    · rw [if_pos ⟨hroom, rfl⟩, if_pos hroom]
      exact ⟨none, rfl, rfl⟩
    · rw [if_neg (fun hmore => hroom hmore.1), if_neg hroom]
      exact ⟨_, rfl, room, rfl, hsize⟩
  | cons data lines ih =>
    rw [map_cons, listedWithin]
    by_cases hroom : got.length < limit
    · obtain ⟨hne, hfit, hrest⟩ := h hroom
      have hwrite := hline (string data) got room
      rw [if_pos (by omega)] at hwrite
      rw [if_pos hroom, readLines_cons hroom hne (hshort data mem_cons_self), hwrite, bind_some]
      by_cases hgood : (values (string data)).2 = true
      · rw [if_pos hgood, if_pos hgood]
        have hsize' : (got ++ (values (string data)).1).length +
            (room.drop (values (string data)).1.length).length = size := by
          rw [length_append, length_drop]
          omega
        by_cases hmore : Continues (string data) = true
        · rw [if_pos hmore, hmore]
          refine ih (fun data hdata => hshort data (mem_cons_of_mem _ hdata)) hsize' ?_
          rw [length_append]
          exact hrest hgood hmore
        · rw [if_neg hmore]
          refine ⟨_, readLines_enough fun hcont => hmore hcont.2, _, rfl, hsize'⟩
      · rw [if_neg hgood, if_neg hgood]
        exact ⟨none, rfl, rfl⟩
    · rw [if_neg hroom, readLines_enough fun hmore => hroom hmore.1]
      exact ⟨_, rfl, room, rfl, hsize⟩

/-- Where a line has none, it is written behind the buffer. -/
theorem readLines_eq_none (hline : Writes line values)
    (hshort : ∀ data ∈ lines, (string data).length < 256) {got room : Text}
    (hsize : got.length + room.length = size)
    (h : ¬ Room values limit size got.length (lines.map string)) :
    readLines line limit true lines (got ++ room) got.length = none := by
  induction lines generalizing got room with
  | nil => exact absurd trivial h
  | cons data lines ih =>
    rw [map_cons, Room, Classical.not_imp] at h
    obtain ⟨hroom, h⟩ := h
    rcases eq_or_ne (string data) [] with hnil | hne
    · rw [readLines, if_pos ⟨hroom, rfl⟩, hnil, willBeContinuous_nil]
      rfl
    · rw [readLines_cons hroom hne (hshort data mem_cons_self), hline (string data) got room]
      by_cases hfit : (values (string data)).1.length ≤ room.length
      · have hrest : ¬ ((values (string data)).2 = true → Continues (string data) = true →
            Room values limit size (got.length + (values (string data)).1.length)
              (lines.map string)) := fun hr => h ⟨hne, by omega, hr⟩
        rw [Classical.not_imp, Classical.not_imp] at hrest
        obtain ⟨hgood, hmore, hrest⟩ := hrest
        rw [if_pos hfit, if_pos hgood, bind_some, hmore]
        refine ih (fun data hdata => hshort data (mem_cons_of_mem _ hdata)) ?_ ?_
        · rw [length_append, length_drop]
          omega
        · rwa [length_append]
      · rw [if_neg hfit]
        rfl

end Lines

/-! ## The print -/

/-- **Bytes are printed** into five characters each, of which there are so many
for 256. -/
theorem printBytes_eq {buffer prtb : Text} {turns i : ℕ} (hbuffer : i + turns ≤ buffer.length)
    (hprtb : prtb.length = prtbSize) (h : i + turns ≤ 256) :
    ∃ prtb', printBytes buffer turns i prtb = some prtb' ∧ (0 < turns → 0 ∈ prtb') := by
  induction turns generalizing i prtb with
  | zero => exact ⟨prtb, rfl, fun hpos => absurd hpos (Nat.lt_irrefl 0)⟩
  | succ turns ih =>
    have hload := Block.load_of_le (b := buffer) (i := i) (n := 1) (by omega)
    set byte := (buffer.drop i).take 1
    have hroom : i * 5 + (sprintfByte (byte.headD 0)).length ≤ prtb.length := by
      rw [hprtb]
      show i * 5 + 6 ≤ 1281
      omega
    obtain ⟨prtb', hstore, hlen⟩ := Block.store_of_le hroom
    obtain ⟨prtb'', hrest, hzero⟩ := ih (i := i + 1) (by omega) (hlen.trans hprtb) (by omega)
    refine ⟨prtb'', ?_, fun _ => ?_⟩
    · rw [printBytes, hload, bind_eq_bind, bind_some, hstore]
      exact hrest
    · rcases Nat.eq_zero_or_pos turns with rfl | hpos
      · -- The last one leaves its zero.
        obtain rfl := some.inj hrest
        rw [Block.store, if_pos hroom] at hstore
        rw [← some.inj hstore]
        have hmem : (0 : BitVec 8) ∈ sprintfByte (byte.headD 0) := by simp [sprintfByte]
        exact mem_append_left _ (mem_append_right _ hmem)
      · exact hzero hpos

theorem printBytes_eq_none {buffer prtb : Text} {turns i : ℕ} (hbuffer : i + turns ≤ buffer.length)
    (hprtb : prtb.length = prtbSize) (hi : i ≤ 256) (h : 256 < i + turns) :
    printBytes buffer turns i prtb = none := by
  induction turns generalizing i prtb with
  | zero => omega
  | succ turns ih =>
    rw [printBytes, Block.load_of_le (by omega), bind_eq_bind, bind_some]
    by_cases hfull : i = 256
    · rw [Block.store_eq_none (by rw [hprtb]; show 1281 < i * 5 + 6; omega)]
      rfl
    · have hroom : i * 5 + (sprintfByte (((buffer.drop i).take 1).headD 0)).length ≤
          prtb.length := by
        rw [hprtb]
        show i * 5 + 6 ≤ 1281
        omega
      obtain ⟨prtb', hstore, hlen⟩ := Block.store_of_le hroom
      rw [hstore]
      exact ih (by omega) (hlen.trans hprtb) (by omega) (by omega)

/-! ## What the functions owe -/

section Works

variable (file csc field : Text) (size : ℕ) (debugLevel : ℤ)

/-- What `fgets` gives behind a place, as strings. -/
def pieces (file : Text) (pos : ℕ) : List Text := (fgets 255 (file.drop pos)).map string

/-- The lines behind a place, as strings. -/
def wholeLines (file : Text) (pos : ℕ) : List Text :=
  (Splitter.lines (· = newline) 0 (file.drop pos)).map string

/-- The field lists these values. -/
def ListsAt (values : Text → Text × Bool) (all : Text) : Prop :=
  ∃ found pos, findByName file (setUserPrefix csc) field = some found ∧ found.place = some pos ∧
    listed values (wholeLines file pos) = some all

/-- **`get_config_byteArry` works**: whatever is in the buffers, no write leaves
them, and listed bytes that fit are what comes out. -/
def ByteArryWorks : Prop :=
  ∀ (mem : Before size) (allocated : Bool), ∃ count dest,
    getConfigByteArry file csc field debugLevel mem allocated = some (count, dest) ∧
      (allocated = true → ∀ all, ListsAt file csc field bytesOf all → all.length ≤ size →
        count = all.length ∧ dest = all ++ mem.dest.drop all.length)

/-- **`get_config_string` works**: the same, with the zero behind. -/
def StringWorks : Prop :=
  ∀ (mem : Before size) (allocated : Bool), ∃ count dest,
    getConfigString file csc field mem allocated = some (count, dest) ∧
      (allocated = true → ∀ all, ListsAt file csc field charsOf all → all.length + 1 ≤ size →
        count = all.length + 1 ∧ dest = (all ++ [0]) ++ mem.dest.drop (all.length + 1))

/-- The search stays in its buffers, and where it finds the field this holds of
its place. -/
def AtPlace (P : ℕ → Prop) : Prop :=
  ∃ found, findByName file (setUserPrefix csc) field = some found ∧ ∀ pos ∈ found.place, P pos

variable {file csc field size debugLevel}

variable {pos : ℕ} {mem : Before size} {found : Found}

theorem length_piece :
    ∀ data ∈ fgets 255 (file.drop pos), (string data).length < 256 := by
  intro data hdata
  have hlen : (string data).length ≤ data.length := (List.takeWhile_prefix _).length_le
  have hle : data.length ≤ 254 := Splitter.length_le_of_mem_lines (by decide) hdata
  omega

/-- **The bytes behind a place can be read**: each line has room, there are not
too many to print and not none, and the pieces list what the lines do. Where
they list nothing the count is zero all the same. -/
structure BytesReadable (file : Text) (size : ℕ) (debugLevel : ℤ) (pos : ℕ) : Prop where
  room : Room bytesOf size size 0 (pieces file pos)
  printed : ∀ all, listedWithin bytesOf size [] (pieces file pos) = some all →
    all.length ≤ 256 ∧ (1 ≤ debugLevel → all ≠ [])
  whole : ∀ all, listed bytesOf (wholeLines file pos) = some all → all.length ≤ size →
    (listedWithin bytesOf size [] (pieces file pos)).getD [] = all

/-- **So can its string**: there is room for the zero too, and the count is an
`int`. -/
structure StringReadable (file : Text) (size pos : ℕ) : Prop where
  room : Room charsOf (size - 1) size 0 (pieces file pos)
  ended : ∀ all, listedWithin charsOf (size - 1) [] (pieces file pos) = some all →
    all.length < size
  whole : ∀ all, listed charsOf (wholeLines file pos) = some all → all.length < size →
    listedWithin charsOf (size - 1) [] (pieces file pos) = some all ∧ all.length + 1 < 2 ^ 31

section Place

variable {found : Found} {pos : ℕ}

variable (debugLevel) in
theorem getConfigByteArry_place (mem : Before size) (hsize : 1 ≤ size)
    (hfound : findByName file (setUserPrefix csc) field = some found)
    (hpos : found.place = some pos) :
    getConfigByteArry file csc field debugLevel mem true =
      (readLines (fun data => byteLine (data.length + 1) (skipToken data)) size true
        (fgets 255 (file.drop pos)) mem.buffer 0).bind (finishByteArry debugLevel mem) := by
  unfold getConfigByteArry
  rw [if_neg (by omega), hfound, bind_eq_bind, bind_some, hpos]
  rfl

theorem getConfigString_place (mem : Before size) (hsize : 1 ≤ size)
    (hfound : findByName file (setUserPrefix csc) field = some found)
    (hpos : found.place = some pos) :
    getConfigString file csc field mem true =
      (readLines (stringLine false) (size - 1) true
        (fgets 255 (file.drop pos)) mem.buffer 0).bind (finishString mem) := by
  unfold getConfigString
  rw [if_neg (by omega), hfound, bind_eq_bind, bind_some, hpos]
  rfl

end Place

/-- What is copied out of the buffer. -/
theorem copy_eq {dest front : Text} (back : Text) (h : front.length ≤ dest.length) :
    ((Block.load (front ++ back) 0 front.length).bind fun bytes => Block.store dest 0 bytes) =
      some (front ++ dest.drop front.length) := by
  rw [Block.load_front, bind_some, Block.store_zero h]

/-- **Bytes that can be printed come out.** -/
theorem finishByteArry_eq {all back : Text} (hsize : all.length + back.length = size)
    (hprint : all.length ≤ 256) (hlog : 1 ≤ debugLevel → all ≠ []) :
    finishByteArry debugLevel mem (some (all ++ back, all.length)) =
      some ((all.length : ℤ), all ++ mem.dest.drop all.length) := by
  have hbuffer : 0 + all.length ≤ (all ++ back).length := by
    rw [length_append]
    omega
  have hdest : all.length ≤ mem.dest.length := by
    rw [mem.length_dest]
    omega
  obtain ⟨prtb, hprtb, hzero⟩ := printBytes_eq hbuffer mem.length_prtb (by omega)
  have hlogd : osiLogd debugLevel prtb = some () := by
    refine if_neg fun ⟨hlevel, hno⟩ => hno (hzero ?_)
    exact length_pos_iff.mpr (hlog hlevel)
  obtain ⟨bytes, hload, hstore⟩ := bind_eq_some_iff.mp (copy_eq back hdest)
  rw [finishByteArry, hprtb, bind_eq_bind, bind_some, hlogd]
  simp only [bind_eq_bind, bind_some, hload, hstore]
  rw [toInt_of_lt (by omega) (by omega)]

/-- **A string with room for its zero comes out.** -/
theorem finishString_eq {all back : Text} (hsize : all.length + back.length = size)
    (hroom : all.length < size) :
    finishString mem (some (all ++ back, all.length)) =
      some (toInt (all.length + 1 : ℕ), (all ++ [0]) ++ mem.dest.drop (all.length + 1)) := by
  obtain ⟨x, back, rfl⟩ := exists_cons_of_length_eq_add_one
    (by omega : back.length = (back.length - 1) + 1)
  have hput : Block.put (all ++ x :: back) all.length 0 = some ((all ++ [0]) ++ back) := by
    rw [Block.put_at rfl, append_assoc, singleton_append]
  have hlen : (all ++ [(0 : BitVec 8)]).length = all.length + 1 := by
    rw [length_append, length_singleton]
  have hdest : (all ++ [(0 : BitVec 8)]).length ≤ mem.dest.length := by
    rw [mem.length_dest]
    omega
  obtain ⟨bytes, hload, hstore⟩ := bind_eq_some_iff.mp (copy_eq back hdest)
  rw [hlen] at hload hstore
  rw [finishString, hput, bind_eq_bind, bind_some, if_neg (by omega)]
  simp only [bind_some, hload, hstore]
  rfl

/-- More than 256 bytes are printed over the end of `prtb`. -/
theorem finishByteArry_eq_none {all back : Text} (hprint : 256 < all.length) :
    finishByteArry debugLevel mem (some (all ++ back, all.length)) = none := by
  have hbuffer : 0 + all.length ≤ (all ++ back).length := by
    rw [length_append]
    omega
  rw [finishByteArry, printBytes_eq_none hbuffer mem.length_prtb (by omega) (by omega)]
  rfl

/-- A string without room for its zero is ended behind the buffer. -/
theorem finishString_eq_none {all back : Text} (hsize : all.length + back.length = size)
    (hroom : size ≤ all.length) :
    finishString mem (some (all ++ back, all.length)) = none := by
  have hlen : (all ++ back).length ≤ all.length := by
    rw [length_append]
    omega
  rw [finishString, Block.put_eq_none hlen]
  rfl

/-- Ones in all buffers. -/
def Before.ones (size : ℕ) : Before size where
  dest := List.replicate size 1
  length_dest := length_replicate
  buffer := List.replicate size 1
  length_buffer := length_replicate
  prtb := List.replicate prtbSize 1
  length_prtb := length_replicate

/-- Without a byte, `prtb` is logged as it was. -/
theorem finishByteArry_nil (hlevel : 1 ≤ debugLevel) (buffer : Text) :
    finishByteArry debugLevel (Before.ones size) (some (buffer, 0)) = none := by
  have hno : (0 : BitVec 8) ∉ List.replicate prtbSize 1 := fun h =>
    absurd (eq_of_mem_replicate h) (by decide)
  have hlogd : osiLogd debugLevel (List.replicate prtbSize 1) = none := if_pos ⟨hlevel, hno⟩
  rw [finishByteArry, printBytes, bind_eq_bind, bind_some]
  show (osiLogd debugLevel (List.replicate prtbSize 1)).bind _ = none
  rw [hlogd]
  rfl

section Read

variable {mem : Before size} {pos : ℕ} {values : Text → Text × Bool} {limit : ℕ}
  {line : Text → Text → ℕ → Option (Option (Text × ℕ))}

theorem length_nil_add_buffer (mem : Before size) :
    ([] : Text).length + mem.buffer.length = size := by
  rw [mem.length_buffer, length_nil, Nat.zero_add]

/-- The loop from an empty buffer. -/
theorem readLines_place (mem : Before size) (hline : Writes line values)
    (h : Room values limit size 0 (pieces file pos)) :
    ∃ r, readLines line limit true (fgets 255 (file.drop pos)) mem.buffer 0 = some r ∧
      Left size (listedWithin values limit [] (pieces file pos)) r :=
  readLines_eq hline length_piece (length_nil_add_buffer mem) h

theorem readLines_place_eq_none (mem : Before size) (hline : Writes line values)
    (h : ¬ Room values limit size 0 (pieces file pos)) :
    readLines line limit true (fgets 255 (file.drop pos)) mem.buffer 0 = none :=
  readLines_eq_none hline length_piece (length_nil_add_buffer mem) h

end Read

theorem listsAt_iff {values : Text → Text × Bool}
    (hfound : findByName file (setUserPrefix csc) field = some found)
    (hpos : found.place = some pos) (all : Text) :
    ListsAt file csc field values all ↔ listed values (wholeLines file pos) = some all := by
  constructor
  · rintro ⟨found', pos', hfound', hpos', hall⟩
    obtain rfl := some.inj (hfound.symm.trans hfound')
    obtain rfl := some.inj (hpos.symm.trans hpos')
    exact hall
  · exact fun hall => ⟨found, pos, hfound, hpos, hall⟩

/-- The zero behind a string is found among ones. -/
theorem eq_of_ended {a b : Text} {m n : ℕ}
    (h : a ++ 0 :: List.replicate m (1 : BitVec 8) = b ++ 0 :: List.replicate n 1) : a = b := by
  have hsplit : ∀ (l : Text) k, l ++ 0 :: List.replicate (k + 1) (1 : BitVec 8) =
      (l ++ 0 :: List.replicate k 1) ++ [1] := fun l k => by
    rw [replicate_succ', append_assoc, cons_append]
  have hends : ∀ (l l' : Text) k, l ++ [0] ≠ l' ++ 0 :: List.replicate (k + 1) (1 : BitVec 8) := by
    intro l l' k heq
    rw [hsplit] at heq
    exact absurd (append_inj' heq rfl).2 (by decide)
  induction m generalizing n with
  | zero =>
    rcases n with _ | n
    · exact (append_inj' h rfl).1
    · exact absurd h (hends a b n)
  | succ m ih =>
    rcases n with _ | n
    · exact absurd h.symm (hends b a m)
    · rw [hsplit, hsplit] at h
      exact ih (append_inj' h rfl).1

/-- **At a place**, bytes work where they can be read. -/
theorem byteArryWorks_place_iff (hsize : 1 ≤ size)
    (hfound : findByName file (setUserPrefix csc) field = some found)
    (hpos : found.place = some pos) :
    ByteArryWorks file csc field size debugLevel ↔ BytesReadable file size debugLevel pos := by
  constructor
  · intro hworks
    obtain ⟨count, dest, hget, howed⟩ := hworks (Before.ones size) true
    rw [getConfigByteArry_place _ _ hsize hfound hpos] at hget
    have hroom : Room bytesOf size size 0 (pieces file pos) := by
      by_contra hno
      rw [readLines_place_eq_none _ writes_byteLine hno] at hget
      contradiction
    obtain ⟨r, hread, hleft⟩ := readLines_place (Before.ones size) writes_byteLine hroom
    rw [hread, bind_some] at hget
    have hprinted : ∀ all, listedWithin bytesOf size [] (pieces file pos) = some all →
        all.length ≤ 256 ∧ (1 ≤ debugLevel → all ≠ []) := by
      intro all hall
      rw [hall] at hleft
      obtain ⟨back, rfl, -⟩ := hleft
      refine ⟨?_, fun hlevel hnil => ?_⟩
      · by_contra hmany
        rw [finishByteArry_eq_none (by omega)] at hget
        contradiction
      · rw [hnil, length_nil, finishByteArry_nil hlevel] at hget
        contradiction
    refine ⟨hroom, hprinted, fun all hall hfit => ?_⟩
    obtain ⟨hcount, hdest⟩ := howed rfl all ((listsAt_iff hfound hpos all).mpr hall) hfit
    rcases hwithin : listedWithin bytesOf size [] (pieces file pos) with _ | all'
    · rw [hwithin] at hleft
      obtain rfl := hleft
      obtain ⟨rfl, -⟩ := Prod.mk.inj (some.inj hget)
      exact (eq_nil_of_length_eq_zero (by omega)).symm
    · rw [hwithin] at hleft
      obtain ⟨back, rfl, hlen⟩ := hleft
      obtain ⟨hmany, hlog⟩ := hprinted all' hwithin
      rw [finishByteArry_eq hlen hmany hlog] at hget
      obtain ⟨rfl, rfl⟩ := Prod.mk.inj (some.inj hget)
      have heq : all'.length = all.length := by omega
      rw [heq] at hdest
      exact append_cancel_right hdest
  · intro h mem allocated
    rcases allocated with _ | _
    · refine ⟨0, mem.dest, ?_, nofun⟩
      unfold getConfigByteArry
      rw [if_neg (by omega), hfound, bind_eq_bind, bind_some, hpos]
      rfl
    · obtain ⟨r, hread, hleft⟩ := readLines_place mem writes_byteLine h.room
      have hget := getConfigByteArry_place debugLevel mem hsize hfound hpos
      rw [hread, bind_some] at hget
      have hlisted := fun all hall => h.whole all ((listsAt_iff hfound hpos all).mp hall)
      rcases hwithin : listedWithin bytesOf size [] (pieces file pos) with _ | all'
      · rw [hwithin] at hleft
        obtain rfl := hleft
        refine ⟨0, mem.dest, hget, fun _ all hall hfit => ?_⟩
        obtain rfl : [] = all := by
          have := hlisted all hall hfit
          rwa [hwithin] at this
        exact ⟨rfl, rfl⟩
      · rw [hwithin] at hleft
        obtain ⟨back, rfl, hlen⟩ := hleft
        obtain ⟨hmany, hlog⟩ := h.printed all' hwithin
        rw [finishByteArry_eq hlen hmany hlog] at hget
        refine ⟨_, _, hget, fun _ all hall hfit => ?_⟩
        obtain rfl : all' = all := by
          have := hlisted all hall hfit
          rwa [hwithin] at this
        exact ⟨rfl, rfl⟩

/-- **At a place**, a string works where it can be read. -/
theorem stringWorks_place_iff (hsize : 1 ≤ size)
    (hfound : findByName file (setUserPrefix csc) field = some found)
    (hpos : found.place = some pos) :
    StringWorks file csc field size ↔ StringReadable file size pos := by
  constructor
  · intro hworks
    obtain ⟨count, dest, hget, howed⟩ := hworks (Before.ones size) true
    rw [getConfigString_place _ hsize hfound hpos] at hget
    have hroom : Room charsOf (size - 1) size 0 (pieces file pos) := by
      by_contra hno
      rw [readLines_place_eq_none _ writes_stringLine hno] at hget
      contradiction
    obtain ⟨r, hread, hleft⟩ := readLines_place (Before.ones size) writes_stringLine hroom
    rw [hread, bind_some] at hget
    have hended : ∀ all, listedWithin charsOf (size - 1) [] (pieces file pos) = some all →
        all.length < size := by
      intro all hall
      rw [hall] at hleft
      obtain ⟨back, rfl, hlen⟩ := hleft
      by_contra hfull
      rw [finishString_eq_none hlen (by omega)] at hget
      contradiction
    refine ⟨hroom, hended, fun all hall hfit => ?_⟩
    obtain ⟨hcount, hdest⟩ := howed rfl all ((listsAt_iff hfound hpos all).mpr hall) hfit
    rcases hwithin : listedWithin charsOf (size - 1) [] (pieces file pos) with _ | all'
    · rw [hwithin] at hleft
      obtain rfl := hleft
      obtain ⟨rfl, -⟩ := Prod.mk.inj (some.inj hget)
      omega
    · rw [hwithin] at hleft
      obtain ⟨back, rfl, hlen⟩ := hleft
      rw [finishString_eq hlen (hended all' hwithin)] at hget
      obtain ⟨rfl, rfl⟩ := Prod.mk.inj (some.inj hget)
      obtain rfl : all' = all := by
        simp only [Before.ones, drop_replicate, append_assoc, singleton_append] at hdest
        exact eq_of_ended hdest
      refine ⟨rfl, ?_⟩
      by_contra hlong
      have hint : toInt (all'.length + 1 : ℕ) < 2 ^ 31 := by
        unfold toInt
        rw [Int.bmod_def]
        split <;> omega
      omega
  · intro h mem allocated
    rcases allocated with _ | _
    · refine ⟨0, mem.dest, ?_, nofun⟩
      unfold getConfigString
      rw [if_neg (by omega), hfound, bind_eq_bind, bind_some, hpos]
      rfl
    · obtain ⟨r, hread, hleft⟩ := readLines_place mem writes_stringLine h.room
      have hget := getConfigString_place mem hsize hfound hpos
      rw [hread, bind_some] at hget
      have hlisted := fun all hall => h.whole all ((listsAt_iff hfound hpos all).mp hall)
      rcases hwithin : listedWithin charsOf (size - 1) [] (pieces file pos) with _ | all'
      · rw [hwithin] at hleft
        obtain rfl := hleft
        refine ⟨0, mem.dest, hget, fun _ all hall hfit => ?_⟩
        have := (hlisted all hall hfit).1
        rw [hwithin] at this
        contradiction
      · rw [hwithin] at hleft
        obtain ⟨back, rfl, hlen⟩ := hleft
        rw [finishString_eq hlen (h.ended all' hwithin)] at hget
        refine ⟨_, _, hget, fun _ all hall hfit => ?_⟩
        obtain ⟨hall', hint⟩ := hlisted all hall hfit
        obtain rfl : all' = all := by rwa [hwithin, some_inj] at hall'
        rw [toInt_of_lt (by omega) (by omega)]
        exact ⟨rfl, rfl⟩

end Works

/-- **The readers work exactly when** the size is zero, or the search stays in
its buffers and what is behind the field, if it is found, can be read. -/
theorem getConfig_works_iff (file csc field : Text) (size : ℕ) (debugLevel : ℤ) :
    (ByteArryWorks file csc field size debugLevel ↔
      size = 0 ∨ AtPlace file csc field (BytesReadable file size debugLevel)) ∧
    (StringWorks file csc field size ↔
      size = 0 ∨ AtPlace file csc field (StringReadable file size)) := by
  rcases Nat.eq_zero_or_pos size with rfl | hsize
  · refine ⟨iff_of_true (fun mem _ => ?_) (.inl rfl), iff_of_true (fun mem _ => ?_) (.inl rfl)⟩
    · refine ⟨0, mem.dest, rfl, fun _ all _ hfit => ?_⟩
      obtain rfl : all = [] := eq_nil_of_length_eq_zero (by omega)
      exact ⟨rfl, rfl⟩
    · exact ⟨0, mem.dest, rfl, fun _ all _ hfit => by omega⟩
  · rw [or_iff_right (by omega : size ≠ 0), or_iff_right (by omega : size ≠ 0)]
    rcases hfound : findByName file (setUserPrefix csc) field with _ | found
    · -- The search faults.
      have hno : ∀ P, ¬ AtPlace file csc field P := by
        rintro P ⟨found, hfound', -⟩
        rw [hfound] at hfound'
        contradiction
      refine ⟨iff_of_false (fun hworks => ?_) (hno _), iff_of_false (fun hworks => ?_) (hno _)⟩
      · obtain ⟨count, dest, hget, -⟩ := hworks (Before.ones size) true
        unfold getConfigByteArry at hget
        rw [if_neg (by omega), hfound] at hget
        contradiction
      · obtain ⟨count, dest, hget, -⟩ := hworks (Before.ones size) true
        unfold getConfigString at hget
        rw [if_neg (by omega), hfound] at hget
        contradiction
    · have hat : ∀ P, AtPlace file csc field P ↔ ∀ pos ∈ found.place, P pos := by
        intro P
        constructor
        · rintro ⟨found', hfound', hP⟩
          obtain rfl := some.inj (hfound.symm.trans hfound')
          exact hP
        · exact fun hP => ⟨found, hfound, hP⟩
      rw [hat, hat]
      rcases hpos : found.place with _ | pos
      · -- There is no such field.
        have hlists : ∀ values all, ¬ ListsAt file csc field values all := by
          rintro values all ⟨found', pos, hfound', hpos', -⟩
          obtain rfl := some.inj (hfound.symm.trans hfound')
          rw [hpos] at hpos'
          contradiction
        refine ⟨iff_of_true (fun mem _ => ⟨0, mem.dest, ?_, fun _ all hall => ?_⟩) nofun,
          iff_of_true (fun mem _ => ⟨0, mem.dest, ?_, fun _ all hall => ?_⟩) nofun⟩
        · unfold getConfigByteArry
          rw [if_neg (by omega), hfound, bind_eq_bind, bind_some, hpos]
        · exact absurd hall (hlists _ all)
        · unfold getConfigString
          rw [if_neg (by omega), hfound, bind_eq_bind, bind_some, hpos]
        · exact absurd hall (hlists _ all)
      · rw [byteArryWorks_place_iff hsize hfound hpos, stringWorks_place_iff hsize hfound hpos]
        simp only [mem_some, forall_eq', and_self]

/-- **Not every reader works**: two bytes on a line are written into an array of
one. -/
theorem not_getConfig_works :
    ¬ ∀ file csc field size debugLevel,
      ByteArryWorks file csc field size debugLevel ∧ StringWorks file csc field size := by
  intro h
  obtain ⟨count, dest, hget, -⟩ :=
    (h [0x41, 0x3D, 0x31, 0x20, 0x32, newline] [] [0x41] 1 0).1 (Before.ones 1) true
  have hfault : getConfigByteArry [0x41, 0x3D, 0x31, 0x20, 0x32, newline] [] [0x41] 0
      (Before.ones 1) true = none := by decide
  rw [hfault] at hget
  contradiction

end ExynosVendor.Nfc.Config
