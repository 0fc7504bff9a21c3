import SyncClipboard.Run

/-!
The text format of `java.util.Properties`: `store` and `load`.

A text is a list of the codes of its characters, and so is a string, whose codes are those of UTF-16.
The reader puts logical lines together: it leaves out comments and blank lines, and joins a line with
the next one if it ends in a backslash. A line is a key and a value, with escapes. What is stored is
loaded again (`load_store`).
-/

namespace SyncClipboard.Properties

abbrev Text := List ℕ

def isBlank (c : ℕ) : Bool := c = 32 || c = 9 || c = 12

def isEol (c : ℕ) : Bool := c = 10 || c = 13

/-! ### store -/

/-- A digit of `hexDigit`, in upper case. -/
def hexDigit (d : ℕ) : ℕ := if d < 10 then 48 + d else 55 + d

/-- How a character is written; `space` tells if a space is escaped. -/
def escape (space : Bool) (u : ℕ) : Text :=
  if u = 92 then [92, 92]
  else if u = 32 then if space then [92, 32] else [32]
  else if u = 9 then [92, 116]
  else if u = 10 then [92, 110]
  else if u = 13 then [92, 114]
  else if u = 12 then [92, 102]
  else if u = 61 ∨ u = 58 ∨ u = 35 ∨ u = 33 then [92, u]
  else if u < 32 ∨ 126 < u then
    [92, 117, hexDigit (u / 4096 % 16), hexDigit (u / 256 % 16), hexDigit (u / 16 % 16), hexDigit (u % 16)]
  else [u]

/-- A space at the beginning is always escaped. -/
def saveConvert (escapeSpace : Bool) : List ℕ → Text
  | [] => []
  | u :: us => escape true u ++ us.flatMap (escape escapeSpace)

/-- `key=value`. -/
def storeLine (e : List ℕ × List ℕ) : Text := saveConvert true e.1 ++ 61 :: saveConvert false e.2

def commentLine (newLine comment : Text) : Text := 35 :: comment ++ newLine

def header (newLine comments date : Text) : Text := commentLine newLine comments ++ commentLine newLine date

def store (newLine comments date : Text) (entries : List (List ℕ × List ℕ)) : Text :=
  header newLine comments date ++ entries.flatMap fun e => storeLine e ++ newLine

/-! ### load -/

/-- The variables of `LineReader.readLine`. -/
structure Reader where
  /-- `lineBuf` up to `len` -/
  buf : Text
  skipWhiteSpace : Bool
  appendedLineBegin : Bool
  precedingBackslash : Bool
  /-- inside a comment -/
  comment : Bool
  /-- a line feed after a carriage return is not looked at -/
  skipLF : Bool
  /-- a backslash and the end of its line were just read -/
  continued : Bool
  deriving DecidableEq

/-- At the beginning of a logical line. -/
def fresh : Reader := ⟨[], true, false, false, false, false, false⟩

/-- A character that is not left out. -/
def take (r : Reader) (c : ℕ) : Reader × List Text :=
  if r.buf = [] ∧ (c = 35 ∨ c = 33) then ({ r with skipWhiteSpace := true, comment := true }, [])
  else if isEol c then
    if r.buf = [] then ({ r with skipWhiteSpace := true }, [])
    else if r.precedingBackslash then
      (⟨r.buf.dropLast, true, true, false, false, c = 13, true⟩, [])
    else (fresh, [r.buf])
  else ({ r with buf := r.buf ++ [c], precedingBackslash := c = 92 && !r.precedingBackslash }, [])

/-- One character, and the logical line that ends with it. -/
def read (r : Reader) (c : ℕ) : Reader × List Text :=
  let skip := r.skipLF && decide (c = 10)
  let r := { r with skipLF := false, continued := false }
  if skip then (r, [])
  else if r.comment then (if isEol c then { r with comment := false } else r, [])
  else if r.skipWhiteSpace then
    if isBlank c || !r.appendedLineBegin && isEol c then (r, [])
    else take { r with skipWhiteSpace := false, appendedLineBegin := false } c
  else take r c

/-- The line that is open at the end of the text. -/
def atEnd (r : Reader) : List Text :=
  if r.continued then [r.buf]
  else if r.buf = [] then []
  else [if r.precedingBackslash then r.buf.dropLast else r.buf]

def logicalLines (text : Text) : List Text :=
  Run.outs read fresh text ++ atEnd (Run.exec read fresh text)

/-- What stands before the value: blanks, with one separator among them. -/
def skipSeparator (rest : Text) : Text :=
  match rest.dropWhile isBlank with
  | c :: cs => if c = 61 ∨ c = 58 then cs.dropWhile isBlank else c :: cs
  | [] => []

/-- The key and the value of a line, both still escaped. -/
def splitLine : Bool → Text → Text × Text
  | _, [] => ([], [])
  | precedingBackslash, c :: cs =>
    if (c = 61 ∨ c = 58) ∧ precedingBackslash = false then ([], cs.dropWhile isBlank)
    else if isBlank c ∧ precedingBackslash = false then ([], skipSeparator cs)
    else
      let r := splitLine (c = 92 && !precedingBackslash) cs
      (c :: r.1, r.2)

def hexValue (c : ℕ) : Option ℕ :=
  if 48 ≤ c ∧ c ≤ 57 then some (c - 48)
  else if 65 ≤ c ∧ c ≤ 70 then some (c - 55)
  else if 97 ≤ c ∧ c ≤ 102 then some (c - 87)
  else none

/-- What a backslash and a character stand for. -/
def unescape (c : ℕ) : ℕ :=
  if c = 116 then 9 else if c = 110 then 10 else if c = 114 then 13 else if c = 102 then 12 else c

/-- `none` is an `IllegalArgumentException`. -/
def loadConvert : Text → Option (List ℕ)
  | [] => some []
  | 92 :: 117 :: a :: b :: c :: d :: rest => do
    let a ← hexValue a
    let b ← hexValue b
    let c ← hexValue c
    let d ← hexValue d
    let us ← loadConvert rest
    return (((a * 16 + b) * 16 + c) * 16 + d) :: us
  | 92 :: c :: rest => if c = 117 then none else (loadConvert rest).map (unescape c :: ·)
  | c :: rest => if c = 92 then none else (loadConvert rest).map (c :: ·)

def loadLine (line : Text) : Option (List ℕ × List ℕ) :=
  let r := splitLine false line
  (loadConvert r.1).bind fun key => (loadConvert r.2).map fun value => (key, value)

/-- The entries in the order in which they are put. -/
def load (text : Text) : Option (List (List ℕ × List ℕ)) := (logicalLines text).mapM loadLine

/-! ### How a character is written -/

/-- The three ways; `space` tells that a blank is not written as it is. -/
inductive Written (space : Bool) : ℕ → Text → Prop
  | plain {c : ℕ} (hbackslash : c ≠ 92) (heol : isEol c = false) (hseparator : ¬ (c = 61 ∨ c = 58))
      (hcomment : ¬ (c = 35 ∨ c = 33)) (hblank : space = true → isBlank c = false) : Written space c [c]
  | escaped {u c : ℕ} (hu : unescape c = u) (heol : isEol c = false) (hc : c ≠ 117) : Written space u [92, c]
  | unicode {u : ℕ} (hu : u < 65536) : Written space u
      [92, 117, hexDigit (u / 4096 % 16), hexDigit (u / 256 % 16), hexDigit (u / 16 % 16), hexDigit (u % 16)]

lemma written_escape {u : ℕ} (hu : u < 65536) (space : Bool) : Written space u (escape space u) := by
  unfold escape
  split_ifs with h92 h32 hspace h9 h10 h13 h12 hsep hrange
  · exact .escaped (by rw [h92]; rfl) rfl (by decide)
  · exact .escaped (by rw [h32]; rfl) rfl (by decide)
  · rw [h32]
    exact .plain (by decide) rfl (by decide) (by decide) fun htrue => absurd htrue hspace
  · exact .escaped (by rw [h9]; rfl) rfl (by decide)
  · exact .escaped (by rw [h10]; rfl) rfl (by decide)
  · exact .escaped (by rw [h13]; rfl) rfl (by decide)
  · exact .escaped (by rw [h12]; rfl) rfl (by decide)
  · rcases hsep with rfl | rfl | rfl | rfl <;> exact .escaped rfl rfl (by decide)
  · exact .unicode hu
  · refine .plain h92 ?_ (by omega) (by omega) fun _ => ?_
    · simp only [isEol, Bool.or_eq_false_iff, decide_eq_false_iff_not]
      exact ⟨h10, h13⟩
    · simp only [isBlank, Bool.or_eq_false_iff, decide_eq_false_iff_not]
      exact ⟨⟨h32, h9⟩, h12⟩

lemma hexValue_hexDigit {d : ℕ} (hd : d < 16) : hexValue (hexDigit d) = some d := by
  unfold hexDigit hexValue
  split_ifs <;> first | omega | (congr 1; omega)

/-- A hexadecimal digit is no backslash, ends no line and is no separator. -/
lemma hexDigit_ne {d : ℕ} (hd : d < 16) :
    hexDigit d ≠ 92 ∧ isEol (hexDigit d) = false ∧ ¬ (hexDigit d = 61 ∨ hexDigit d = 58) ∧
      isBlank (hexDigit d) = false := by
  revert d
  decide

lemma loadConvert_written {space : Bool} {u : ℕ} {w : Text} (h : Written space u w) (rest : Text) :
    loadConvert (w ++ rest) = (loadConvert rest).map (u :: ·) := by
  cases h with
  | plain hbackslash _ _ _ _ =>
    rw [List.singleton_append, loadConvert]
    · rw [if_neg hbackslash]
    · rintro a b c d rest rfl
      exact fun _ => hbackslash rfl
    · rintro c rest rfl
      exact fun _ => hbackslash rfl
  | escaped hu _ hc =>
    rw [List.cons_append, List.singleton_append, loadConvert]
    · rw [if_neg hc, hu]
    · rintro a b c d rest rfl
      exact fun _ => hc rfl
  | unicode hu =>
    have hvalue : ((u / 4096 % 16 * 16 + u / 256 % 16) * 16 + u / 16 % 16) * 16 + u % 16 = u := by omega
    simp only [List.cons_append, List.nil_append, loadConvert,
      hexValue_hexDigit (Nat.mod_lt _ (by decide : 16 > 0)), Option.bind_eq_bind, Option.bind_some, hvalue]
    cases loadConvert rest <;> rfl

lemma loadConvert_flatMap (space : Bool) {us : List ℕ} (hus : ∀ u ∈ us, u < 65536) :
    loadConvert (us.flatMap (escape space)) = some us := by
  induction us with
  | nil => rfl
  | cons u us ih =>
    rw [List.flatMap_cons, loadConvert_written (written_escape (hus u (by simp)) space),
      ih fun u' hu' => hus u' (by simp [hu'])]
    rfl

lemma loadConvert_saveConvert (escapeSpace : Bool) {us : List ℕ} (hus : ∀ u ∈ us, u < 65536) :
    loadConvert (saveConvert escapeSpace us) = some us := by
  cases us with
  | nil => rfl
  | cons u us =>
    rw [saveConvert, loadConvert_written (written_escape (hus u (by simp)) true),
      loadConvert_flatMap escapeSpace fun u' hu' => hus u' (by simp [hu'])]
    rfl

lemma saveConvert_true (us : List ℕ) : saveConvert true us = us.flatMap (escape true) := by
  cases us with
  | nil => rfl
  | cons u us => rw [saveConvert, List.flatMap_cons]

/-! ### The key and the value of a line -/

lemma splitLine_written {u : ℕ} {w : Text} (h : Written true u w) (rest : Text) :
    splitLine false (w ++ rest) = (w ++ (splitLine false rest).1, (splitLine false rest).2) := by
  cases h with
  | plain hbackslash _ hseparator _ hblank =>
    rw [List.singleton_append, splitLine, if_neg (by simp [hseparator]), if_neg (by simp [hblank rfl])]
    simp [hbackslash]
  | escaped _ _ _ =>
    simp [splitLine, isBlank]
  | unicode _ =>
    have hdigit : ∀ n rest, splitLine false (hexDigit (n % 16) :: rest) =
        (hexDigit (n % 16) :: (splitLine false rest).1, (splitLine false rest).2) := by
      intro n rest
      obtain ⟨hbackslash, -, hseparator, hblank⟩ := hexDigit_ne (Nat.mod_lt n (by decide : 16 > 0))
      rw [splitLine, if_neg (by simp [hseparator]), if_neg (by simp [hblank])]
      simp [hbackslash]
    simp only [List.cons_append, List.nil_append]
    rw [splitLine, if_neg (by simp), if_neg (by simp [isBlank])]
    simp only [decide_true, Bool.not_false, Bool.and_self]
    rw [splitLine, if_neg (by simp), if_neg (by simp)]
    simp only [Nat.reduceEqDiff, decide_false, Bool.false_and, hdigit]

lemma dropWhile_saveConvert {us : List ℕ} (hus : ∀ u ∈ us, u < 65536) :
    (saveConvert false us).dropWhile isBlank = saveConvert false us := by
  cases us with
  | nil => rfl
  | cons u us =>
    rw [saveConvert]
    have h := written_escape (hus u (by simp)) true
    generalize escape true u = w at h
    cases h with
    | plain _ _ _ _ hblank => simp [hblank rfl]
    | escaped _ _ _ => simp [isBlank]
    | unicode _ => simp [isBlank]

/-- A string that Java can have. -/
def Units (us : List ℕ) : Prop := ∀ u ∈ us, u < 65536

lemma splitLine_storeLine {e : List ℕ × List ℕ} (hkey : Units e.1) (hvalue : Units e.2) :
    splitLine false (storeLine e) = (saveConvert true e.1, saveConvert false e.2) := by
  rw [storeLine, saveConvert_true]
  obtain ⟨key, value⟩ := e
  dsimp only at hkey hvalue ⊢
  induction key with
  | nil =>
    rw [List.flatMap_nil, List.nil_append, splitLine, if_pos ⟨.inl rfl, rfl⟩, dropWhile_saveConvert hvalue]
  | cons u us ih =>
    rw [List.flatMap_cons, List.append_assoc, splitLine_written (written_escape (hkey u (by simp)) true),
      ih fun u' hu' => hkey u' (by simp [hu'])]

lemma loadLine_storeLine {e : List ℕ × List ℕ} (hkey : Units e.1) (hvalue : Units e.2) :
    loadLine (storeLine e) = some e := by
  rw [loadLine, splitLine_storeLine hkey hvalue]
  dsimp only
  rw [loadConvert_saveConvert true hkey, loadConvert_saveConvert false hvalue]
  rfl

/-! ### Logical lines -/

/-- Inside a line. -/
def inside (buf : Text) (precedingBackslash : Bool) : Reader :=
  ⟨buf, false, false, precedingBackslash, false, false, false⟩

/-- Inside a comment. -/
def commenting : Reader := ⟨[], true, false, false, true, false, false⟩

/-- If a text ends in a backslash that is not itself escaped. -/
def slash (precedingBackslash : Bool) (t : Text) : Bool := t.foldl (fun p c => c = 92 && !p) precedingBackslash

lemma slash_append (p : Bool) (t t' : Text) : slash p (t ++ t') = slash (slash p t) t' := List.foldl_append

lemma read_inside {buf : Text} (hbuf : buf ≠ []) (p : Bool) {c : ℕ} (heol : isEol c = false) :
    read (inside buf p) c = (inside (buf ++ [c]) (c = 92 && !p), []) := by
  simp [read, inside, take, hbuf, heol]

lemma read_inside_eol {buf : Text} (hbuf : buf ≠ []) {c : ℕ} (heol : isEol c = true) :
    read (inside buf false) c = (fresh, [buf]) := by
  simp [read, inside, take, hbuf, heol]

lemma read_fresh_eol {c : ℕ} (heol : isEol c = true) : read fresh c = (fresh, []) := by
  simp [read, fresh, heol]

/-- A character that can begin a line. -/
def Opens (c : ℕ) : Prop := isBlank c = false ∧ isEol c = false ∧ ¬ (c = 35 ∨ c = 33)

lemma read_fresh {c : ℕ} (h : Opens c) : read fresh c = (inside [c] (c = 92), []) := by
  obtain ⟨hblank, heol, hcomment⟩ := h
  simp [read, fresh, inside, take, hblank, heol, hcomment]

lemma run_inside {buf : Text} (hbuf : buf ≠ []) (p : Bool) {t : Text} (ht : ∀ c ∈ t, isEol c = false) :
    Run.exec read (inside buf p) t = inside (buf ++ t) (slash p t) ∧ Run.outs read (inside buf p) t = [] := by
  induction t generalizing buf p with
  | nil => simp [slash]
  | cons c t ih =>
    have hread := read_inside hbuf p (ht c (by simp))
    obtain ⟨hexec, houts⟩ := @ih (buf ++ [c]) (by simp) (c = 92 && !p) fun c' hc' => ht c' (by simp [hc'])
    rw [Run.exec_cons, Run.outs_cons, hread, hexec, houts, List.append_assoc]
    exact ⟨rfl, rfl⟩

/-- A line that can be opened, has no end of line in it and no backslash at its end is read as it is. -/
lemma run_line {c : ℕ} {t : Text} (hc : Opens c) (ht : ∀ c ∈ t, isEol c = false) (hslash : slash false (c :: t) = false) :
    Run.exec read fresh (c :: t) = inside (c :: t) false ∧ Run.outs read fresh (c :: t) = [] := by
  obtain ⟨hexec, houts⟩ := @run_inside [c] (by simp) (c = 92) t ht
  have hstate : slash (c = 92) t = false := by
    rw [← hslash, slash, slash, List.foldl_cons]
    simp
  rw [Run.exec_cons, Run.outs_cons, read_fresh hc, hexec, houts, hstate]
  exact ⟨rfl, rfl⟩

lemma written_noEol {space : Bool} {u : ℕ} {w : Text} (h : Written space u w) : ∀ c ∈ w, isEol c = false := by
  intro c hc
  cases h with
  | plain _ heol _ _ _ =>
    obtain rfl := List.mem_singleton.mp hc
    exact heol
  | escaped _ heol _ =>
    rcases List.mem_pair.mp hc with rfl | rfl
    · rfl
    · exact heol
  | unicode _ =>
    have hdigit : ∀ n, isEol (hexDigit (n % 16)) = false := fun n => (hexDigit_ne (Nat.mod_lt n (by decide))).2.1
    simp only [List.mem_cons, List.not_mem_nil, or_false] at hc
    rcases hc with rfl | rfl | rfl | rfl | rfl | rfl
    · rfl
    · rfl
    all_goals exact hdigit _

lemma written_slash {space : Bool} {u : ℕ} {w : Text} (h : Written space u w) : slash false w = false := by
  cases h with
  | plain hbackslash _ _ _ _ => simp [slash, hbackslash]
  | escaped _ _ _ => simp [slash]
  | unicode _ =>
    have hdigit : ∀ n, hexDigit (n % 16) ≠ 92 := fun n => (hexDigit_ne (Nat.mod_lt n (by decide))).1
    simp [slash, hdigit]

lemma written_opens {u : ℕ} {w : Text} (h : Written true u w) : ∃ c t, w = c :: t ∧ Opens c := by
  cases h with
  | plain _ heol _ hcomment hblank => exact ⟨_, _, rfl, hblank rfl, heol, hcomment⟩
  | escaped _ _ _ => exact ⟨_, _, rfl, by decide, by decide, by decide⟩
  | unicode _ => exact ⟨_, _, rfl, by decide, by decide, by decide⟩

/-- What is written of a string has no end of line and leaves no backslash. -/
lemma flatMap_escape {us : List ℕ} (hus : Units us) (space : Bool) :
    (∀ c ∈ us.flatMap (escape space), isEol c = false) ∧ slash false (us.flatMap (escape space)) = false := by
  induction us with
  | nil => exact ⟨by simp, rfl⟩
  | cons u us ih =>
    have h := written_escape (hus u (by simp)) space
    obtain ⟨hrest, hslash⟩ := ih fun u' hu' => hus u' (by simp [hu'])
    rw [List.flatMap_cons]
    refine ⟨fun c hc => ?_, by rw [slash_append, written_slash h, hslash]⟩
    rcases List.mem_append.mp hc with hc | hc
    · exact written_noEol h c hc
    · exact hrest c hc

lemma saveConvert_clean {us : List ℕ} (hus : Units us) (escapeSpace : Bool) :
    (∀ c ∈ saveConvert escapeSpace us, isEol c = false) ∧ slash false (saveConvert escapeSpace us) = false := by
  cases us with
  | nil => exact ⟨by simp [saveConvert], rfl⟩
  | cons u us =>
    have h := written_escape (hus u (by simp)) true
    obtain ⟨hrest, hslash⟩ := flatMap_escape (fun u' hu' => hus u' (by simp [hu']) : Units us) escapeSpace
    rw [saveConvert]
    refine ⟨fun c hc => ?_, by rw [slash_append, written_slash h, hslash]⟩
    rcases List.mem_append.mp hc with hc | hc
    · exact written_noEol h c hc
    · exact hrest c hc

lemma run_storeLine {e : List ℕ × List ℕ} (hkey : Units e.1) (hvalue : Units e.2) :
    Run.exec read fresh (storeLine e) = inside (storeLine e) false ∧ Run.outs read fresh (storeLine e) = [] := by
  obtain ⟨hkeyEol, hkeySlash⟩ := saveConvert_clean hkey true
  obtain ⟨hvalueEol, hvalueSlash⟩ := saveConvert_clean hvalue false
  have heol : ∀ c ∈ storeLine e, isEol c = false := by
    intro c hc
    rw [storeLine, List.mem_append, List.mem_cons] at hc
    rcases hc with hc | rfl | hc
    · exact hkeyEol c hc
    · rfl
    · exact hvalueEol c hc
  have hslash : slash false (storeLine e) = false := by
    rw [storeLine, slash_append, hkeySlash, ← List.singleton_append, slash_append]
    exact hvalueSlash
  have hopens : ∃ c t, storeLine e = c :: t ∧ Opens c := by
    unfold storeLine
    cases hus : e.1 with
    | nil => exact ⟨61, _, rfl, by decide, by decide, by decide⟩
    | cons u us =>
      obtain ⟨c, t, hw, hc⟩ := written_opens (written_escape (hkey u (by simp [hus])) true)
      rw [saveConvert, hw]
      exact ⟨c, _, rfl, hc⟩
  obtain ⟨c, t, hline, hc⟩ := hopens
  rw [hline] at heol hslash ⊢
  exact run_line hc (fun c' hc' => heol c' (by simp [hc'])) hslash

/-! ### Whole texts -/

/-- `System.lineSeparator()`. -/
def NewLine (newLine : Text) : Prop := newLine = [10] ∨ newLine = [13, 10]

/-- A text of one line. -/
def OneLine (t : Text) : Prop := ∀ c ∈ t, isEol c = false

lemma run_newLine {newLine buf : Text} (hnl : NewLine newLine) (hbuf : buf ≠ []) :
    Run.exec read (inside buf false) newLine = fresh ∧ Run.outs read (inside buf false) newLine = [buf] := by
  have hlf := @read_inside_eol buf hbuf 10 rfl
  have hcr := @read_inside_eol buf hbuf 13 rfl
  have hskip := @read_fresh_eol 10 rfl
  rcases hnl with rfl | rfl
  · simp [hlf]
  · simp [hcr, hskip]

lemma run_commenting {t : Text} (ht : OneLine t) :
    Run.exec read commenting t = commenting ∧ Run.outs read commenting t = [] := by
  induction t with
  | nil => exact ⟨rfl, rfl⟩
  | cons c t ih =>
    have hread : read commenting c = (commenting, []) := by simp [read, commenting, ht c (by simp)]
    obtain ⟨hexec, houts⟩ := ih fun c' hc' => ht c' (by simp [hc'])
    rw [Run.exec_cons, Run.outs_cons, hread, hexec, houts]
    exact ⟨rfl, rfl⟩

/-- A text that ends between lines or in a comment and has no lines so far. -/
def Quiet (r : Reader) (t : Text) : Prop :=
  (Run.exec read r t = fresh ∨ Run.exec read r t = commenting) ∧ Run.outs read r t = []

lemma quiet_newLine {newLine : Text} (hnl : NewLine newLine) (n : ℕ) :
    Quiet commenting (newLine.take n) ∧ Run.exec read commenting newLine = fresh ∧
      Run.outs read commenting newLine = [] := by
  have hlf : read commenting 10 = (fresh, []) := by decide
  have hcr : read commenting 13 = (fresh, []) := by decide
  have hskip := @read_fresh_eol 10 rfl
  rcases hnl with rfl | rfl
  · rcases n with _ | n <;> simp [Quiet, hlf]
  · rcases n with _ | _ | n <;> simp [Quiet, hcr, hskip]

lemma quiet_commentLine {newLine comment : Text} (hnl : NewLine newLine) (hcomment : OneLine comment) (n : ℕ) :
    Quiet fresh ((commentLine newLine comment).take n) ∧
      Run.exec read fresh (commentLine newLine comment) = fresh ∧
      Run.outs read fresh (commentLine newLine comment) = [] := by
  have hread : read fresh 35 = (commenting, []) := by decide
  obtain ⟨hexec, houts⟩ := run_commenting hcomment
  obtain ⟨-, hend, hnone⟩ := quiet_newLine hnl 0
  refine ⟨?_, ?_, ?_⟩
  · cases n with
    | zero => exact ⟨.inl rfl, rfl⟩
    | succ n =>
      have hpart : OneLine (comment.take n) := fun c hc => hcomment c (List.mem_of_mem_take hc)
      obtain ⟨hexec', houts'⟩ := run_commenting hpart
      obtain ⟨⟨hstate, hout⟩, -⟩ := quiet_newLine hnl (n - comment.length)
      rw [commentLine, List.cons_append, List.take_succ_cons, List.take_append, Quiet, Run.exec_cons, Run.outs_cons,
        hread, Run.exec_append, Run.outs_append, hexec', houts', hout]
      exact ⟨hstate, rfl⟩
  · rw [commentLine, List.cons_append, Run.exec_cons, hread, Run.exec_append, hexec, hend]
  · rw [commentLine, List.cons_append, Run.outs_cons, hread, Run.outs_append, hexec, houts, hnone]
    rfl

lemma run_entries {newLine : Text} (hnl : NewLine newLine) {entries : List (List ℕ × List ℕ)}
    (hunits : ∀ e ∈ entries, Units e.1 ∧ Units e.2) :
    Run.exec read fresh (entries.flatMap fun e => storeLine e ++ newLine) = fresh ∧
      Run.outs read fresh (entries.flatMap fun e => storeLine e ++ newLine) = entries.map storeLine := by
  induction entries with
  | nil => exact ⟨rfl, rfl⟩
  | cons e entries ih =>
    obtain ⟨hexec, houts⟩ := ih fun e' he' => hunits e' (by simp [he'])
    obtain ⟨hkey, hvalue⟩ := hunits e (by simp)
    obtain ⟨hline, hnone⟩ := run_storeLine hkey hvalue
    obtain ⟨hend, hout⟩ := @run_newLine newLine (storeLine e) hnl (by simp [storeLine])
    rw [List.flatMap_cons, Run.exec_append, Run.outs_append, Run.exec_append, Run.outs_append, hline, hnone, hend,
      hout, hexec, houts]
    exact ⟨rfl, rfl⟩

lemma mapM_storeLine {entries : List (List ℕ × List ℕ)} (hunits : ∀ e ∈ entries, Units e.1 ∧ Units e.2) :
    (entries.map storeLine).mapM loadLine = some entries := by
  induction entries with
  | nil => rfl
  | cons e entries ih =>
    rw [List.map_cons, List.mapM_cons, loadLine_storeLine (hunits e (by simp)).1 (hunits e (by simp)).2,
      ih fun e' he' => hunits e' (by simp [he'])]
    rfl

section Store

variable {newLine comments date : Text} (hnl : NewLine newLine) (hcomments : OneLine comments) (hdate : OneLine date)

include hnl hcomments hdate

lemma run_header : Run.exec read fresh (header newLine comments date) = fresh ∧
    Run.outs read fresh (header newLine comments date) = [] := by
  obtain ⟨-, hexec, houts⟩ := quiet_commentLine hnl hcomments 0
  obtain ⟨-, hexec', houts'⟩ := quiet_commentLine hnl hdate 0
  rw [header, Run.exec_append, Run.outs_append, hexec, houts, hexec', houts']
  exact ⟨rfl, rfl⟩

/-- As long as only the comments are there, there are no entries. -/
theorem load_take_header (n : ℕ) : load ((header newLine comments date).take n) = some [] := by
  have hquiet : Quiet fresh ((header newLine comments date).take n) := by
    rw [header, List.take_append]
    obtain ⟨⟨hstate, hout⟩, hexec, houts⟩ := quiet_commentLine hnl hcomments n
    obtain ⟨⟨hstate', hout'⟩, -⟩ := quiet_commentLine hnl hdate (n - (commentLine newLine comments).length)
    rcases Nat.lt_or_ge n (commentLine newLine comments).length with hlt | hge
    · rw [Nat.sub_eq_zero_of_le (by omega), List.take_zero, List.append_nil]
      exact ⟨hstate, hout⟩
    · rw [List.take_of_length_le hge, Quiet, Run.exec_append, Run.outs_append, hexec, houts, hout']
      exact ⟨hstate', rfl⟩
  obtain ⟨hstate, hout⟩ := hquiet
  rw [load, logicalLines, hout]
  rcases hstate with hstate | hstate
  · rw [hstate]
    rfl
  · rw [hstate]
    rfl

/-- **What is stored is loaded again.** -/
theorem load_store {entries : List (List ℕ × List ℕ)} (hunits : ∀ e ∈ entries, Units e.1 ∧ Units e.2) :
    load (store newLine comments date entries) = some entries := by
  obtain ⟨hexec, houts⟩ := run_header hnl hcomments hdate
  obtain ⟨hexec', houts'⟩ := run_entries hnl hunits
  rw [load, logicalLines, store, Run.exec_append, Run.outs_append, hexec, houts, hexec', houts']
  simp only [List.nil_append, atEnd, fresh, Bool.false_eq_true, if_false, if_true, List.append_nil]
  exact mapM_storeLine hunits

/-- An entry is loaded also if the end of its line is missing. -/
theorem load_open_line {e : List ℕ × List ℕ} (hkey : Units e.1) (hvalue : Units e.2) :
    load (header newLine comments date ++ storeLine e) = some [e] := by
  obtain ⟨hexec, houts⟩ := run_header hnl hcomments hdate
  obtain ⟨hline, hnone⟩ := run_storeLine hkey hvalue
  have hne : storeLine e ≠ [] := by simp [storeLine]
  rw [load, logicalLines, Run.exec_append, Run.outs_append, hexec, houts, hline, hnone]
  simp only [List.nil_append, atEnd, inside, Bool.false_eq_true, if_false, hne]
  rw [List.mapM_cons, loadLine_storeLine hkey hvalue]
  rfl

end Store

end SyncClipboard.Properties
