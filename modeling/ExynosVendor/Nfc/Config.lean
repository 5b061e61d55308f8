import ExynosVendor.Common.Splitter
import Mathlib.Data.List.Pairwise
import Mathlib.Data.List.TakeWhile

/-!
# The configuration file

The search of `util.cc`: `find_by_name` looks for a field in the lines that
`fgets` gives, with the prefix of the customer first. A line is taken where it
starts with the name of the field; what comes behind the name is not looked at.

`FieldFile` is a file of lines that fit the buffer, `namedPlace` what its lines
mean. `findsNamedField_iff` says when the search finds it.
-/

namespace ExynosVendor.Nfc.Config

open List Option

/-! ## Strings -/

abbrev Text := List (BitVec 8)

def newline : BitVec 8 := 0x0A

def backslash : BitVec 8 := 0x5C

def hash : BitVec 8 := 0x23

def isspace (c : BitVec 8) : Bool := c = 0x20 ∨ 0x09 ≤ c ∧ c ≤ 0x0D

/-- `isToken`: `:`, `=`, a space and a tabulator. -/
def isToken (c : BitVec 8) : Bool := c = 0x3A ∨ c = 0x3D ∨ c = 0x20 ∨ c = 0x09

/-- `skipSpace`. -/
def skipSpace (x : Text) : Text := x.dropWhile isspace

/-- `skipToken`. -/
def skipToken (x : Text) : Text := x.dropWhile isToken

/-- A buffer as a string. -/
def string (buffer : Text) : Text := buffer.takeWhile (· ≠ 0)

/-- What `fgets` gives with this size, call by call. -/
def fgets (size : ℕ) (file : Text) : List Text := Splitter.lines (· = newline) (size - 1) file

/-- `strncat` to a string in a buffer of this size, with the zero behind. -/
def strncat (size : ℕ) (dest src : Text) (n : ℕ) : Option Text :=
  if dest.length + (src.take n).length < size then some (dest ++ src.take n) else none

/-! ## The search -/

/-- The loop of `willBeContinuous`, from the end of the buffer. -/
def backOverSpace (p : BitVec 8) : Text → BitVec 8
  | [] => p
  | c :: buffer => if isspace p then backOverSpace c buffer else p

/-- `willBeContinuous`. Of an empty string the byte in front of it is read. -/
def willBeContinuous (buffer : Text) (maxlen : ℕ) : Option Bool :=
  let len := min buffer.length maxlen
  if len = maxlen ∧ buffer.getD (len - 2) 0 ≠ newline then some true
  else
    match (buffer.take len).reverse with
    | [] => none
    | c :: front => some (backOverSpace c front = backslash)

/-- `find_by_name_from_current`, at a place in the file: the new place, if the
field is found. -/
def findByNameFromCurrent (field : Text) : ℕ → Bool → List Text → Option (Option ℕ)
  | _, _, [] => some none
  | pos, skip, line :: lines => do
      let buffer := string line
      let willSkip ← willBeContinuous buffer 256
      let p := skipSpace buffer
      if skip ∨ p.head? = some hash then
        findByNameFromCurrent field (pos + line.length) willSkip lines
      else if field.isPrefixOf p then
        some (some (pos + line.length - p.length + field.length))
      else findByNameFromCurrent field (pos + line.length) willSkip lines

/-- `set_user_prefix`. -/
def setUserPrefix (field : Text) : Option Text :=
  if field.length = 0 then none else some (0x2B :: field.take 3)

/-- The place that `find_by_name` finds, with `last_field_override`. -/
structure Found where
  place : Option ℕ
  lastFieldOverride : Bool
  deriving DecidableEq

def firstFieldSize : ℕ := 256

def underline : BitVec 8 := 0x5F

/-- `firstField`. -/
def firstField (userPrefix field : Text) : Option Text := do
  let dest := userPrefix.take (firstFieldSize - 1)
  let dest ← strncat firstFieldSize dest [underline] (firstFieldSize - dest.length)
  strncat firstFieldSize dest field (firstFieldSize - dest.length)

/-- `find_by_name`. -/
def findByName (file : Text) (userPrefix : Option Text) (field : Text) : Option Found := do
  let lines := fgets 255 file
  match userPrefix with
  | none =>
      let place ← findByNameFromCurrent field 0 false lines
      some ⟨place, false⟩
  | some userPrefix => do
      let name ← firstField userPrefix field
      match ← findByNameFromCurrent name 0 false lines with
      | some place => some ⟨some place, true⟩
      | none => do
          let place ← findByNameFromCurrent field 0 false lines
          some ⟨place, false⟩

/-! ## Files of lines -/

/-- **A file of lines**: each fits the buffer of the search, and there is no
zero in it. -/
structure FieldFile where
  text : Text
  short : ∀ line ∈ Splitter.lines (· = newline) 0 text, line.length ≤ 254
  noZero : 0 ∉ text

/-- A line in a file. -/
structure Entry where
  start : ℕ
  line : Text
  /-- It continues the line in front. -/
  continued : Bool
  deriving DecidableEq

/-- The last character that is not a space is a backslash. -/
def Continues (line : Text) : Bool := (line.reverse.dropWhile isspace).head? = some backslash

/-- The lines, each with its place. -/
def entries : ℕ → Bool → List Text → List Entry
  | _, _, [] => []
  | start, continued, line :: lines =>
      ⟨start, line, continued⟩ :: entries (start + line.length) (Continues line) lines

def FieldFile.lines (file : FieldFile) : List Text := Splitter.lines (· = newline) 0 file.text

def FieldFile.entries (file : FieldFile) : List Entry := Config.entries 0 false file.lines

namespace Entry

variable (e : Entry)

/-- Without its indentation. -/
def body : Text := skipSpace e.line

def key : Text := e.body.takeWhile fun c => ¬ isToken c ∧ c ≠ newline

/-- Neither a comment nor the continuation of another line. -/
def isField : Prop := ¬ e.continued ∧ e.body.head? ≠ some hash

instance : Decidable e.isField := inferInstanceAs (Decidable (_ ∧ _))

/-- The place behind a name at its beginning. -/
def behind (name : Text) : ℕ := e.start + (e.line.length - e.body.length) + name.length

end Entry

namespace FieldFile

variable (file : FieldFile)

/-- The first field with this key. -/
def firstNamed (name : Text) : Option Entry := file.entries.find? fun e => e.isField ∧ e.key = name

/-- The first field that starts with the name. -/
def firstStarting (name : Text) : Option Entry :=
  file.entries.find? fun e => e.isField ∧ name.isPrefixOf e.body

/-- **What the file says**: the place behind the key of the prefixed name, where
there is one, and else behind the key of the name. -/
def namedPlace (userPrefix : Option Text) (field : Text) : Option ℕ :=
  let named := fun name => (file.firstNamed name).map fun e => e.behind name
  match userPrefix with
  | none => named field
  | some userPrefix => (named (userPrefix ++ underline :: field)).or (named field)

end FieldFile

/-! ## The search in a file of lines -/

theorem backOverSpace_eq (p : BitVec 8) (front : Text) :
    decide (backOverSpace p front = backslash) =
      decide (((p :: front).dropWhile isspace).head? = some backslash) := by
  induction front generalizing p with
  | nil =>
    by_cases hp : isspace p = true
    · have hne : p ≠ backslash := by
        rintro rfl
        exact absurd hp (by decide)
      rw [dropWhile_cons_of_pos hp]
      simp [backOverSpace, hne]
    · refine decide_eq_decide.mpr ?_
      rw [dropWhile_cons_of_neg hp, backOverSpace, head?_cons, some_inj]
  | cons c front ih =>
    by_cases hp : isspace p = true
    · rw [backOverSpace, if_pos hp, ih, dropWhile_cons_of_pos hp]
    · rw [backOverSpace, if_neg hp, dropWhile_cons_of_neg hp, head?_cons]
      exact decide_eq_decide.mpr some_inj.symm

variable {line : Text}

/-- **A line that is shorter than the buffer** goes on where it ends in a
backslash. -/
theorem willBeContinuous_eq {maxlen : ℕ} (hne : line ≠ []) (h : line.length < maxlen) :
    willBeContinuous line maxlen = some (Continues line) := by
  have hmin : min line.length maxlen = line.length := Nat.min_eq_left (Nat.le_of_lt h)
  unfold willBeContinuous
  dsimp only
  rw [hmin, if_neg (fun hfull => by omega), take_length]
  rcases hrev : line.reverse with _ | ⟨c, front⟩
  · exact absurd (reverse_eq_nil_iff.mp hrev) hne
  · dsimp only
    rw [backOverSpace_eq, ← hrev]
    rfl

theorem string_eq (h : 0 ∉ line) : string line = line := by
  rw [string, takeWhile_eq_self_iff]
  intro c hc
  simpa using fun h0 : c = 0 => h (h0 ▸ hc)

/-- A file of lines is what `fgets` gives. -/
theorem FieldFile.fgets_eq (file : FieldFile) : fgets 255 file.text = file.lines :=
  Splitter.linesFrom_eq_of_short (by decide) file.short

theorem FieldFile.noZero_line (file : FieldFile) (h : line ∈ file.lines) :
    0 ∉ line := by
  intro h0
  have hflat := Splitter.flatten_lines (· = newline) 0 file.text
  exact file.noZero (hflat ▸ mem_flatten.mpr ⟨line, h, h0⟩)

/-- **The search finds the first field that starts with the name.** -/
theorem findByNameFromCurrent_eq (name : Text) (lines : List Text)
    (h : ∀ line ∈ lines, line ≠ [] ∧ line.length ≤ 254 ∧ 0 ∉ line) (pos : ℕ) (skip : Bool) :
    findByNameFromCurrent name pos skip lines =
      some (((entries pos skip lines).find? fun e => e.isField ∧ name.isPrefixOf e.body).map
        fun e => e.behind name) := by
  induction lines generalizing pos skip with
  | nil => rfl
  | cons line lines ih =>
    obtain ⟨hne, hlen, hzero⟩ := h line mem_cons_self
    have hrest := ih fun line' hline' => h line' (mem_cons_of_mem _ hline')
    rw [findByNameFromCurrent, string_eq hzero, willBeContinuous_eq hne (by omega), entries,
      bind_eq_bind, bind_some]
    dsimp only
    by_cases hskip : skip = true ∨ (skipSpace line).head? = some hash
    · have hfield : ¬ ((Entry.mk pos line skip).isField ∧
          name.isPrefixOf (Entry.mk pos line skip).body = true) := by
        rintro ⟨hf, -⟩
        rcases hskip with hs | hc
        · exact hf.1 hs
        · exact hf.2 hc
      rw [if_pos hskip, hrest, find?_cons_of_neg (by simpa using hfield)]
    · have hfield : (Entry.mk pos line skip).isField := not_or.mp hskip
      rw [if_neg hskip]
      by_cases hstart : name.isPrefixOf (skipSpace line) = true
      · have hle : (skipSpace line).length ≤ line.length := (dropWhile_sublist _).length_le
        rw [if_pos hstart, find?_cons_of_pos (by
          simp only [hfield, true_and, decide_eq_true_eq]
          exact hstart)]
        simp only [map_some, Entry.behind, Entry.body, some.injEq]
        omega
      · rw [if_neg hstart, hrest, find?_cons_of_neg (by
          simp only [hfield, true_and, decide_eq_true_eq]
          exact hstart)]

namespace FieldFile

variable (file : FieldFile)

theorem findByNameFromCurrent_eq (name : Text) :
    findByNameFromCurrent name 0 false (fgets 255 file.text) =
      some ((file.firstStarting name).map fun e => e.behind name) := by
  rw [file.fgets_eq]
  exact Config.findByNameFromCurrent_eq name file.lines (fun line hline =>
    ⟨Splitter.ne_nil_of_mem_linesFrom hline, file.short line hline, file.noZero_line hline⟩) 0 false

variable {name : Text}

/-- A key is at the beginning of its line. -/
theorem isPrefixOf_of_key_eq {e : Entry} (h : e.key = name) :
    name.isPrefixOf e.body = true := by
  rw [← h, isPrefixOf_iff_prefix]
  exact takeWhile_prefix _

theorem firstNamed_eq_none (h : file.firstStarting name = none) :
    file.firstNamed name = none := by
  refine find?_eq_none.mpr fun e he => ?_
  have hno := find?_eq_none.mp h e he
  simp only [decide_eq_true_eq, not_and] at hno ⊢
  exact fun hfield hkey => hno hfield (isPrefixOf_of_key_eq hkey)

/-- **A name that is taken where it is a key** is the first one. -/
theorem firstNamed_eq_of_key {e : Entry} (h : file.firstStarting name = some e)
    (hkey : e.key = name) : file.firstNamed name = some e := by
  obtain ⟨hstart, front, back, heq, hfront⟩ := find?_eq_some_iff_append.mp h
  refine find?_eq_some_iff_append.mpr ⟨?_, front, back, heq, fun e' he' => ?_⟩
  · simp only [decide_eq_true_eq] at hstart ⊢
    exact ⟨hstart.1, hkey⟩
  · have hno := hfront e' he'
    simp only [Bool.not_eq_true', decide_eq_false_iff_not, not_and] at hno ⊢
    exact fun hfield hkey' => hno hfield (isPrefixOf_of_key_eq hkey')

end FieldFile

/-! ## Places in a file -/

/-- A line in front of another. It has been stopped. -/
def Entry.Before (e e' : Entry) : Prop :=
  e.start + e.line.length ≤ e'.start ∧ ∃ front, e.line = front ++ [newline]

theorem start_le_of_mem_entries {lines : List Text} {start : ℕ} {continued : Bool} {e : Entry}
    (h : e ∈ entries start continued lines) : start ≤ e.start := by
  induction lines generalizing start continued with
  | nil => exact absurd h not_mem_nil
  | cons line lines ih =>
    rw [entries] at h
    rcases mem_cons.mp h with rfl | h
    · exact Nat.le_refl _
    · exact Nat.le_trans (Nat.le_add_right _ _) (ih h)

/-- **The lines come one behind the other.** -/
theorem pairwise_before {lines : List Text}
    (h : lines.Pairwise fun l _ => ∃ front c, l = front ++ [c] ∧ decide (c = newline) = true)
    (start : ℕ) (continued : Bool) : (entries start continued lines).Pairwise Entry.Before := by
  induction lines generalizing start continued with
  | nil => exact List.Pairwise.nil
  | cons line lines ih =>
    obtain ⟨hline, hlines⟩ := pairwise_cons.mp h
    rw [entries]
    refine pairwise_cons.mpr ⟨fun e he => ⟨start_le_of_mem_entries he, ?_⟩, ih hlines _ _⟩
    rcases lines with _ | ⟨line', lines⟩
    · exact absurd he not_mem_nil
    · obtain ⟨front, c, heq, hc⟩ := hline line' mem_cons_self
      rw [decide_eq_true_eq] at hc
      exact ⟨front, hc ▸ heq⟩

namespace Entry

variable {e e' : Entry} {name : Text}

theorem length_body_le (e : Entry) : e.body.length ≤ e.line.length :=
  (dropWhile_sublist _).length_le

theorem behind_le (h : name.isPrefixOf e.body = true) :
    e.behind name ≤ e.start + e.line.length := by
  have hbody := e.length_body_le
  have hname := (List.isPrefixOf_iff_prefix.mp h).length_le
  unfold behind
  omega

/-- **The place is the end of the line** where the name is all there is. -/
theorem body_eq_of_behind_eq (h : name.isPrefixOf e.body = true)
    (heq : e.start + e.line.length ≤ e.behind name) : e.body = name := by
  have hbody := e.length_body_le
  have hstarts := isPrefixOf_iff_prefix.mp h
  refine (hstarts.eq_of_length_le ?_).symm
  unfold behind at heq
  omega

end Entry

namespace FieldFile

variable (file : FieldFile) {name field : Text} {e e' : Entry}

theorem pairwise_entries : file.entries.Pairwise Entry.Before :=
  pairwise_before (Splitter.pairwise_linesFrom_stopped [] file.text) 0 false

/-- Of two lines one is in front. -/
theorem before_or_before (h : e ∈ file.entries) (h' : e' ∈ file.entries) (hne : e ≠ e') :
    e.Before e' ∨ e'.Before e := by
  have hsymm : Std.Symm fun e e' : Entry => e.Before e' ∨ e'.Before e := ⟨fun _ _ => Or.symm⟩
  have hpair : file.entries.Pairwise fun e e' => e.Before e' ∨ e'.Before e :=
    file.pairwise_entries.imp Or.inl
  exact hpair.forall h h' hne

theorem firstStarting_spec (h : file.firstStarting name = some e) :
    e ∈ file.entries ∧ e.isField ∧ name.isPrefixOf e.body = true :=
  ⟨mem_of_find?_eq_some h, by simpa using find?_some h⟩

theorem firstNamed_spec (h : file.firstNamed name = some e) :
    e ∈ file.entries ∧ e.isField ∧ e.key = name :=
  ⟨mem_of_find?_eq_some h, by simpa using find?_some h⟩

/-- **A name that is taken where it is no key** is taken in front of it. -/
theorem behind_ne (h : file.firstStarting name = some e) (hkey : e.key ≠ name)
    (h' : file.firstNamed name = some e') : e.behind name ≠ e'.behind name := by
  obtain ⟨-, front, back, heq, hfront⟩ := find?_eq_some_iff_append.mp h
  obtain ⟨-, -, hstarts⟩ := file.firstStarting_spec h
  obtain ⟨hmem', hfield', hkey'⟩ := file.firstNamed_spec h'
  have hbefore : e.Before e' := by
    have hpair := file.pairwise_entries
    rw [heq] at hpair hmem'
    rcases mem_append.mp hmem' with hin | hin
    · have hno := hfront e' hin
      simp only [Bool.not_eq_true', decide_eq_false_iff_not, not_and] at hno
      exact absurd (isPrefixOf_of_key_eq hkey') (hno hfield')
    · rcases mem_cons.mp hin with rfl | hin
      · exact absurd hkey' hkey
      · exact (pairwise_cons.mp (pairwise_append.mp hpair).2.1).1 e' hin
  intro hplace
  have hbody : e.body = name := by
    refine Entry.body_eq_of_behind_eq hstarts ?_
    have := hbefore.1
    unfold Entry.behind at hplace ⊢
    omega
  refine hkey ?_
  rw [Entry.key, hbody, takeWhile_eq_self_iff]
  intro c hc
  rw [← hkey', Entry.key] at hc
  have hchar := mem_takeWhile_imp hc
  exact hchar

/-- **Nor is a prefixed name** that is no key taken at the place of the name. -/
theorem behind_prefixed_ne {userPrefix : Text}
    (h : file.firstStarting (userPrefix ++ underline :: field) = some e)
    (h' : file.firstNamed field = some e') :
    e.behind (userPrefix ++ underline :: field) ≠ e'.behind field := by
  obtain ⟨hmem, -, hstarts⟩ := file.firstStarting_spec h
  obtain ⟨hmem', -, hkey'⟩ := file.firstNamed_spec h'
  have hstarts' := isPrefixOf_of_key_eq hkey'
  have hlen : (userPrefix ++ underline :: field).length = userPrefix.length + field.length + 1 := by
    rw [length_append, length_cons]
    omega
  have hle := Entry.behind_le hstarts
  have hle' := Entry.behind_le hstarts'
  intro hplace
  rcases eq_or_ne e e' with rfl | hne
  · unfold Entry.behind at hplace
    omega
  · rcases file.before_or_before hmem hmem' hne with hbefore | hbefore
    · -- The line would be the prefixed name and its newline, which is no underline.
      obtain ⟨hstart, front, hline⟩ := hbefore
      have hbody : e.body = userPrefix ++ underline :: field :=
        Entry.body_eq_of_behind_eq hstarts (by unfold Entry.behind at hplace ⊢; omega)
      have hnil : field = [] := eq_nil_of_length_eq_zero (by
        unfold Entry.behind at hplace hle
        omega)
      obtain ⟨indent, hindent⟩ := dropWhile_suffix (l := e.line) isspace
      have hlast : some underline = some newline := by
        rw [← getLast?_concat (l := indent ++ userPrefix), ← getLast?_concat (l := front),
          ← hline, ← hindent, append_assoc]
        exact congrArg (fun b => List.getLast? (indent ++ b)) (hnil ▸ hbody.symm)
      exact absurd hlast (by decide)
    · obtain ⟨hstart, -⟩ := hbefore
      unfold Entry.behind at hplace hle hle'
      omega

end FieldFile

/-! ## When a field is found -/

theorem firstField_eq {userPrefix : Text} (h : userPrefix.length ≤ 4) (field : Text) :
    firstField userPrefix field =
      if userPrefix.length + 1 + field.length < firstFieldSize
      then some (userPrefix ++ underline :: field) else none := by
  have htake : userPrefix.take (firstFieldSize - 1) = userPrefix :=
    take_of_length_le (by unfold firstFieldSize; omega)
  have hline : strncat firstFieldSize userPrefix [underline] (firstFieldSize - userPrefix.length) =
      some (userPrefix ++ [underline]) := by
    have hone : [underline].take (firstFieldSize - userPrefix.length) = [underline] :=
      take_of_length_le (by
        rw [length_singleton]
        unfold firstFieldSize
        omega)
    rw [strncat, hone, if_pos (by rw [length_singleton]; unfold firstFieldSize; omega)]
  have hlen : (userPrefix ++ [underline]).length = userPrefix.length + 1 := by
    rw [length_append, length_singleton]
  unfold firstField
  rw [htake]
  dsimp only
  rw [hline, bind_eq_bind, bind_some, strncat, hlen, length_take]
  by_cases hfit : userPrefix.length + 1 + field.length < firstFieldSize
  · rw [if_pos hfit, if_pos (by omega), take_of_length_le (by omega), append_assoc,
      singleton_append]
  · rw [if_neg hfit, if_neg (by omega)]

theorem length_le_of_setUserPrefix {csc userPrefix : Text}
    (h : setUserPrefix csc = some userPrefix) : userPrefix.length ≤ 4 := by
  unfold setUserPrefix at h
  split at h
  · contradiction
  · rw [← some.inj h, length_cons, length_take]
    omega

/-- The search goes to the place that the file says, and fails where it says
none. -/
def FindsNamedField (file : FieldFile) (csc field : Text) : Prop :=
  ∃ found, findByName file.text (setUserPrefix csc) field = some found ∧
    found.place = file.namedPlace (setUserPrefix csc) field

/-- Where the name begins a line for the first time, it is its key. -/
def FieldFile.StartsAsKey (file : FieldFile) (name : Text) : Prop :=
  ∀ e ∈ file.firstStarting name, e.key = name

/-- **The place of one name** is that of its key exactly when the name begins no
other line in front. -/
theorem FieldFile.place_eq_iff (file : FieldFile) (name : Text) :
    ((file.firstStarting name).map fun e => e.behind name) =
        ((file.firstNamed name).map fun e => e.behind name) ↔ file.StartsAsKey name := by
  rcases hstart : file.firstStarting name with _ | e
  · rw [file.firstNamed_eq_none hstart]
    exact iff_of_true rfl fun e he => absurd (hstart ▸ he) (not_mem_none e)
  · constructor
    · intro heq e' he'
      obtain rfl : e = e' := some.inj (hstart.symm.trans he')
      by_contra hkey
      rcases hnamed : file.firstNamed name with _ | e'
      · rw [hnamed] at heq
        contradiction
      · rw [hnamed] at heq
        exact file.behind_ne hstart hkey hnamed (some.inj heq)
    · intro hkey
      rw [file.firstNamed_eq_of_key hstart (hkey e hstart)]

theorem FieldFile.findByName_none (file : FieldFile) (field : Text) :
    findByName file.text none field =
      some ⟨(file.firstStarting field).map fun e => e.behind field, false⟩ := by
  unfold findByName
  dsimp only
  rw [file.findByNameFromCurrent_eq]
  rfl

theorem FieldFile.findByName_some (file : FieldFile) {userPrefix field : Text}
    (h : userPrefix.length ≤ 4) :
    findByName file.text (some userPrefix) field =
      if userPrefix.length + 1 + field.length < firstFieldSize then
        match file.firstStarting (userPrefix ++ underline :: field) with
        | some e => some ⟨some (e.behind (userPrefix ++ underline :: field)), true⟩
        | none => some ⟨(file.firstStarting field).map fun e => e.behind field, false⟩
      else none := by
  unfold findByName
  dsimp only
  rw [firstField_eq h]
  split
  · rw [bind_eq_bind, bind_some, file.findByNameFromCurrent_eq, file.findByNameFromCurrent_eq]
    rcases file.firstStarting (userPrefix ++ underline :: field) with _ | e <;> rfl
  · rfl

/-- **The named field is found exactly when** the name begins no line in front
of the one whose key it is. -/
theorem findsNamedField_iff (file : FieldFile) (csc field : Text) :
    FindsNamedField file csc field ↔
      match setUserPrefix csc with
      | none => file.StartsAsKey field
      | some userPrefix =>
          userPrefix.length + 1 + field.length < firstFieldSize ∧
            file.StartsAsKey (userPrefix ++ underline :: field) ∧
            (file.firstStarting (userPrefix ++ underline :: field) = none →
              file.StartsAsKey field) := by
  unfold FindsNamedField FieldFile.namedPlace
  rcases hstarts : setUserPrefix csc with _ | userPrefix
  · dsimp only
    rw [file.findByName_none, ← file.place_eq_iff]
    constructor
    · rintro ⟨found, hfound, hplace⟩
      obtain rfl := some.inj hfound
      exact hplace
    · exact fun hplace => ⟨_, rfl, hplace⟩
  · have hshort := length_le_of_setUserPrefix hstarts
    dsimp only
    set name := userPrefix ++ underline :: field with hname
    rw [file.findByName_some hshort, ← hname]
    by_cases hfit : userPrefix.length + 1 + field.length < firstFieldSize
    · rw [if_pos hfit]
      rcases hstart : file.firstStarting name with _ | e
      · have hkey : file.StartsAsKey name := fun e he =>
          absurd (hstart ▸ he) (not_mem_none e)
        rw [file.firstNamed_eq_none hstart, map_none, none_or]
        constructor
        · rintro ⟨found, hfound, hplace⟩
          obtain rfl := some.inj hfound
          exact ⟨hfit, hkey, fun _ => (file.place_eq_iff field).mp hplace⟩
        · rintro ⟨-, -, hfield⟩
          exact ⟨_, rfl, (file.place_eq_iff field).mpr (hfield rfl)⟩
      · constructor
        · rintro ⟨found, hfound, hplace⟩
          obtain rfl := some.inj hfound
          refine ⟨hfit, (file.place_eq_iff name).mp ?_, nofun⟩
          rw [hstart]
          rcases hnamed : file.firstNamed name with _ | e'
          · -- The name without its prefix is not found at this place.
            rw [hnamed, map_none, none_or] at hplace
            obtain ⟨e', he', hbehind⟩ := map_eq_some_iff.mp hplace.symm
            exact absurd hbehind.symm (file.behind_prefixed_ne hstart he')
          · rw [hnamed, map_some, some_or] at hplace
            exact hplace
        · rintro ⟨-, hkey, -⟩
          refine ⟨_, rfl, ?_⟩
          rw [file.firstNamed_eq_of_key hstart (hkey e hstart)]
          rfl
    · rw [if_neg hfit]
      exact iff_of_false (fun ⟨_, hfound, _⟩ => nomatch hfound) fun h => hfit h.1

/-- **A longer key is taken for the field**: `A2=1` for `A`. -/
theorem not_findsNamedField : ∃ file csc field, ¬ FindsNamedField file csc field := by
  refine ⟨⟨[0x41, 0x32, 0x3D, 0x31, newline], by decide, by decide⟩, [], [0x41], ?_⟩
  rintro ⟨found, hfound, hplace⟩
  have hsearch : findByName [0x41, 0x32, 0x3D, 0x31, newline] (setUserPrefix []) [0x41] =
      some ⟨some 1, false⟩ := by decide
  obtain rfl := some.inj (hsearch.symm.trans hfound)
  exact absurd hplace (by decide)

end ExynosVendor.Nfc.Config
