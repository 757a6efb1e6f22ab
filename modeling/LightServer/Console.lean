import Mathlib.Data.List.TakeWhile

/-! The console thread, whose `:q` ends the program: the lines it reads from the standard input, of which a
buffer holds the start. -/
namespace LightServer

def newline : UInt8 := 10

/-- The `:q` that is compared with. -/
def quitLine : List UInt8 := [58,113]

/-- The bytes that `fgets` stores, at most `n` and no more than a line, and those it leaves. -/
def takeLine : Nat → List UInt8 → List UInt8 × List UInt8
  | 0, input => ([],input)
  | _+1, [] => ([],[])
  | n+1, byte::input => if byte = newline then ([byte],input) else ((takeLine n input).1.cons byte,(takeLine n input).2)

def fgets (sz : Nat) (input : List UInt8) : Option (List UInt8 × List UInt8) :=
  if input = [] then none else some (takeLine (sz-1) input)

/-- The loop of `getchar`: `extra`, and what is left of the input. -/
def flushLine : List UInt8 → Bool × List UInt8
  | [] => (false,[])
  | ch::input => if ch = newline then (false,input) else (true,(flushLine input).2)

inductive LineResult
  | ok
  | noInput
  | tooLong
  deriving DecidableEq

/-- `getLine`: its result, the string in `buff` and the rest of the input; `none` where it reads before `buff`. -/
def getLine (sz : Nat) (input : List UInt8) : Option (LineResult × List UInt8 × List UInt8) :=
  match fgets sz input with
  | none => some (.noInput,[],input)
  | some (stored,rest) =>
    let buff := stored.takeWhile (fun ch => ch ≠ 0)
    match buff.getLast? with
    | none => none
    | some last =>
      if last ≠ newline then some (if (flushLine rest).1 then .tooLong else .ok,buff,(flushLine rest).2)
      else some (.ok,buff.dropLast,rest)

structure Terminal where
  stdin : List UInt8
  exitFlag : Bool
  deriving DecidableEq

namespace Terminal

def cancelThreads (t : Terminal) : Terminal := {t with exitFlag := true}

def keyBuffSize : Nat := 30

def terminalDebug (t : Terminal) : Option (Bool × Terminal) :=
  (getLine keyBuffSize t.stdin).map (fun (rc,keyBuff,rest) =>
    let read := {t with stdin := rest}
    if rc = .ok ∧ keyBuff = quitLine then (false,read.cancelThreads) else (true,read))

/-- The loop of `ConsoleInputProcessThread`, of which `thread_run` allows `rounds`; whether it goes on. -/
def consoleInputProcessThread : Nat → Terminal → Option (Bool × Terminal)
  | 0, t => some (true,t)
  | rounds+1, t => t.terminalDebug.bind (fun (goes_on,next) =>
      if goes_on then consoleInputProcessThread rounds next else some (false,next))

end Terminal

/-! The lines of an input, of which the last need not be ended. -/

def lines : List UInt8 → List (List UInt8)
  | [] => []
  | byte::input => if byte = newline then []::lines input else match lines input with
    | [] => [[byte]]
    | line::more => (byte::line)::more

variable {line rest : List UInt8}

theorem lines_ended (inside : newline ∉ line) (rest : List UInt8) : lines (line ++ newline::rest) = line::lines rest := by
  induction line with
  | nil => simp [lines]
  | cons byte line ih =>
    simp only [List.mem_cons,not_or] at inside
    simp [lines,Ne.symm inside.1,ih inside.2]

theorem lines_last (inside : newline ∉ line) (some_byte : line ≠ []) : lines line = [line] := by
  induction line with
  | nil => exact absurd rfl some_byte
  | cons byte line ih =>
    simp only [List.mem_cons,not_or] at inside
    rw [lines,if_neg (Ne.symm inside.1)]
    cases line with
    | nil => rfl
    | cons next line => rw [ih inside.2 (by simp)]

theorem first_line (input : List UInt8) :
    (∃ line rest, newline ∉ line ∧ input = line ++ newline::rest) ∨ newline ∉ input := by
  by_cases ended : newline ∈ input
  · obtain ⟨line,rest,same,before⟩ := List.eq_append_cons_of_mem ended
    exact .inl ⟨line,rest,before,same⟩
  · exact .inr ended

theorem lines_nil {input : List UInt8} (nothing : lines input = []) : input = [] := by
  obtain ⟨line,rest,inside,rfl⟩ | unended := first_line input
  · simp [lines_ended inside] at nothing
  · by_contra some_byte
    simp [lines_last unended some_byte] at nothing

theorem takeLine_ended {n : Nat} (inside : newline ∉ line) (fits : line.length < n) :
    takeLine n (line ++ newline::rest) = (line ++ [newline],rest) := by
  induction line generalizing n with
  | nil =>
    cases n with
    | zero => simp at fits
    | succ n => simp [takeLine]
  | cons byte line ih =>
    simp only [List.mem_cons,not_or] at inside
    cases n with
    | zero => simp at fits
    | succ n => simp [takeLine,Ne.symm inside.1,ih inside.2 (by simpa using fits)]

theorem takeLine_cut {n : Nat} {input : List UInt8} (inside : newline ∉ input.take n) : takeLine n input = (input.take n,input.drop n) := by
  induction input generalizing n with
  | nil => cases n <;> simp [takeLine]
  | cons byte input ih =>
    cases n with
    | zero => rfl
    | succ n =>
      simp only [List.take_succ_cons,List.mem_cons,not_or] at inside
      simp [takeLine,Ne.symm inside.1,ih inside.2]

theorem flushLine_ended (inside : newline ∉ line) (rest : List UInt8) : flushLine (line ++ newline::rest) = (!line.isEmpty,rest) := by
  induction line with
  | nil => simp [flushLine]
  | cons byte line ih =>
    simp only [List.mem_cons,not_or] at inside
    simp [flushLine,Ne.symm inside.1,ih inside.2]

theorem flushLine_last (inside : newline ∉ line) : flushLine line = (!line.isEmpty,[]) := by
  induction line with
  | nil => simp [flushLine]
  | cons byte line ih =>
    simp only [List.mem_cons,not_or] at inside
    simp [flushLine,Ne.symm inside.1,ih inside.2]

theorem fgets_some {sz : Nat} {input : List UInt8} (some_byte : input ≠ []) : fgets sz input = some (takeLine (sz-1) input) :=
  if_neg some_byte

theorem takeWhile_free {stored : List UInt8} (free : 0 ∉ stored) : stored.takeWhile (fun ch => ch ≠ 0) = stored := by
  rw [List.takeWhile_eq_self_iff]
  intro ch member
  have other : ch ≠ 0 := ne_of_mem_of_not_mem member free
  simpa using other

/-- Where `fgets` stores no newline, the rest of the line is skipped. -/
theorem getLine_cut {sz : Nat} {input : List UInt8} (room : 2 ≤ sz) (some_byte : input ≠ []) (inside : newline ∉ input.take (sz-1))
    (free : 0 ∉ input.take (sz-1)) : getLine sz input = some (if (flushLine (input.drop (sz-1))).1 then .tooLong else .ok,
      input.take (sz-1),(flushLine (input.drop (sz-1))).2) := by
  have stored : input.take (sz-1) ≠ [] := by
    rw [ne_eq,List.take_eq_nil_iff,not_or]
    exact ⟨by omega,some_byte⟩
  obtain ⟨last,ends⟩ := Option.ne_none_iff_exists'.mp (mt List.getLast?_eq_none_iff.mp stored)
  have other : last ≠ newline := ne_of_mem_of_not_mem (List.mem_of_getLast? ends) inside
  simp only [getLine,fgets_some some_byte,takeLine_cut inside,takeWhile_free free,ends,if_pos other]

/-- A line is read as a whole, and kept where the buffer has room for it. -/
theorem getLine_ended {sz : Nat} (room : 2 ≤ sz) (inside : newline ∉ line) (free : 0 ∉ line) (rest : List UInt8) :
    ∃ buff, getLine sz (line ++ newline::rest) = some (if line.length < sz then .ok else .tooLong,buff,rest) ∧
      (line.length < sz → buff = line) := by
  have some_byte : line ++ newline::rest ≠ [] := by simp
  by_cases short : line.length < sz - 1
  · have free : 0 ∉ line ++ [newline] := by simpa [newline] using free
    refine ⟨line,?_,fun _ => rfl⟩
    simp only [getLine,fgets_some some_byte,takeLine_ended inside short,takeWhile_free free,List.getLast?_concat,ne_eq,not_true_eq_false,
      if_false,List.dropLast_concat,if_pos (show line.length < sz by omega)]
  · have cut : (line ++ newline::rest).take (sz-1) = line.take (sz-1) := List.take_append_of_le_length (by omega)
    have left : (line ++ newline::rest).drop (sz-1) = line.drop (sz-1) ++ newline::rest := List.drop_append_of_le_length (by omega)
    have within {byte : UInt8} (away : byte ∉ line) : byte ∉ line.take (sz-1) := fun member => away (List.mem_of_mem_take member)
    refine ⟨line.take (sz-1),?_,fun fits => List.take_of_length_le (by omega)⟩
    rw [getLine_cut room some_byte (cut.symm ▸ within inside) (cut.symm ▸ within free),left,cut,
      flushLine_ended (fun member => inside (List.mem_of_mem_drop member))]
    by_cases fits : line.length < sz <;> simp [fits] <;> omega

theorem getLine_last {sz : Nat} (room : 2 ≤ sz) (some_byte : line ≠ []) (inside : newline ∉ line) (free : 0 ∉ line) :
    ∃ buff, getLine sz line = some (if line.length < sz then .ok else .tooLong,buff,[]) ∧ (line.length < sz → buff = line) := by
  have within {byte : UInt8} (away : byte ∉ line) : byte ∉ line.take (sz-1) := fun member => away (List.mem_of_mem_take member)
  refine ⟨line.take (sz-1),?_,fun fits => List.take_of_length_le (by omega)⟩
  rw [getLine_cut room some_byte (within inside) (within free),flushLine_last (fun member => inside (List.mem_of_mem_drop member))]
  by_cases fits : line.length < sz <;> simp [fits] <;> omega

theorem getLine_line {sz : Nat} {input : List UInt8} {more : List (List UInt8)} (room : 2 ≤ sz) (free : 0 ∉ input)
    (first : lines input = line::more) : ∃ buff rest, getLine sz input = some (if line.length < sz then .ok else .tooLong,buff,rest) ∧
      (line.length < sz → buff = line) ∧ lines rest = more ∧ 0 ∉ rest := by
  obtain ⟨start,rest,inside,rfl⟩ | unended := first_line input
  · rw [lines_ended inside,List.cons.injEq] at first
    obtain ⟨rfl,remain⟩ := first
    simp only [List.mem_append,List.mem_cons,not_or] at free
    obtain ⟨buff,reads,holds⟩ := getLine_ended room inside free.1 rest
    exact ⟨buff,rest,reads,holds,remain,free.2.2⟩
  · have some_byte : input ≠ [] := by
      rintro rfl
      simp [lines] at first
    rw [lines_last unended some_byte,List.cons.injEq] at first
    obtain ⟨rfl,rfl⟩ := first
    obtain ⟨buff,reads,holds⟩ := getLine_last room some_byte unended free
    exact ⟨buff,[],reads,holds,rfl,by simp⟩

namespace Terminal

variable {input : List UInt8} {exitFlag : Bool}

/-- A line that does not fit the buffer is not the `:q`, although the buffer holds a part of it. -/
theorem terminalDebug_line {more : List (List UInt8)} (exitFlag : Bool) (free : 0 ∉ input) (first : lines input = line::more) :
    ∃ rest, lines rest = more ∧ 0 ∉ rest ∧
      terminalDebug ⟨input,exitFlag⟩ = some (if line = quitLine then (false,⟨rest,true⟩) else (true,⟨rest,exitFlag⟩)) := by
  have room : 2 ≤ keyBuffSize := by simp [keyBuffSize]
  obtain ⟨buff,rest,reads,holds,remain,free⟩ := getLine_line room free first
  refine ⟨rest,remain,free,?_⟩
  simp only [terminalDebug,reads,Option.map_some]
  by_cases fits : line.length < keyBuffSize
  · simp [fits,holds fits,cancelThreads]
  · have other : line ≠ quitLine := by
      rintro rfl
      simp [quitLine,keyBuffSize] at fits
    simp [fits,other]

theorem consoleInputProcessThread_empty (rounds : Nat) :
    consoleInputProcessThread rounds ⟨[],exitFlag⟩ = some (true,⟨[],exitFlag⟩) := by
  induction rounds with
  | zero => rfl
  | succ rounds ih =>
    have debug : terminalDebug ⟨[],exitFlag⟩ = some (true,⟨[],exitFlag⟩) := rfl
    simp [consoleInputProcessThread,debug,ih]

/-- The thread goes over the lines of the input, one a round, and the first `:q` among them ends it and sets the
flag: a line that is cut or one that only begins with `:q` does not, and it reads nothing after it. -/
theorem console_quits (free : 0 ∉ input) (rounds : Nat) : ∃ rest,
    (quitLine ∉ (lines input).take rounds ∧ lines rest = (lines input).drop rounds ∧
      consoleInputProcessThread rounds ⟨input,exitFlag⟩ = some (true,⟨rest,exitFlag⟩)) ∨
    (∃ before, before.length < rounds ∧ quitLine ∉ before ∧ lines input = before ++ quitLine::lines rest ∧
      consoleInputProcessThread rounds ⟨input,exitFlag⟩ = some (false,⟨rest,true⟩)) := by
  induction rounds generalizing input with
  | zero => exact ⟨input,.inl ⟨by simp,rfl,rfl⟩⟩
  | succ rounds ih =>
    cases first : lines input with
    | nil =>
      cases lines_nil first
      exact ⟨[],.inl ⟨by simp,by simp [lines],consoleInputProcessThread_empty _⟩⟩
    | cons line more =>
      obtain ⟨next,remain,away,debug⟩ := terminalDebug_line exitFlag free first
      by_cases quits : line = quitLine
      · subst quits
        refine ⟨next,.inr ⟨[],by simp,by simp,by simp [remain],?_⟩⟩
        simp [consoleInputProcessThread,debug]
      · rw [if_neg quits] at debug
        have continues : consoleInputProcessThread (rounds+1) ⟨input,exitFlag⟩ = consoleInputProcessThread rounds ⟨next,exitFlag⟩ := by
          simp [consoleInputProcessThread,debug]
        rw [continues]
        obtain ⟨rest,⟨absent,left,runs⟩ | ⟨before,early,absent,split,runs⟩⟩ := ih away
        · refine ⟨rest,.inl ⟨?_,by simpa [remain] using left,runs⟩⟩
          simpa [← remain,Ne.symm quits] using absent
        · refine ⟨rest,.inr ⟨line::before,by simpa using early,by simp [Ne.symm quits,absent],?_,runs⟩⟩
          rw [← remain,split,List.cons_append]

/-- Of the lines `:q` and `x`, the first ends the thread, which leaves the second. -/
theorem console_quits_first : ∃ rest, lines rest = [[120]] ∧
    consoleInputProcessThread 5 ⟨[58,113,10,120],false⟩ = some (false,⟨rest,true⟩) := by
  have input : lines [58,113,10,120] = [quitLine,[120]] := by decide
  obtain ⟨rest,⟨absent,_⟩ | ⟨before,_,absent,split,runs⟩⟩ := @console_quits [58,113,10,120] false (by decide) 5
  · simp [input] at absent
  · rw [input] at split
    cases before with
    | nil => exact ⟨rest,(List.cons.inj split).2.symm,runs⟩
    | cons line before => simp [(List.cons.inj split).1] at absent

end Terminal

end LightServer
