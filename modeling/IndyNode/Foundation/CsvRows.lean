import Mathlib.Data.List.Basic

/-! Rows of separated values: how a row is written with no more quotes than needed, how the
fields are read back character by character, and how a text falls into lines. -/
namespace IndyNode.Csv

def isBreak (c : Char) : Bool := c = '\r' || c = '\n'

section Writing
variable (delimiter : Char)

def needsQuotes (field : List Char) : Bool := field.any fun c => c = delimiter || c = '"' || isBreak c

theorem needsQuotes_cons (c : Char) (rest : List Char) : needsQuotes delimiter (c :: rest) = false ↔
    c ≠ delimiter ∧ c ≠ '"' ∧ isBreak c = false ∧ needsQuotes delimiter rest = false := by
  simp [needsQuotes,and_assoc]

def doubled : List Char → List Char
  | [] => []
  | c :: rest => if c = '"' then '"' :: '"' :: doubled rest else c :: doubled rest

def writeField (field : List Char) : List Char :=
  if needsQuotes delimiter field then '"' :: (doubled field ++ ['"']) else field

def joinFields : List (List Char) → List Char
  | [] => []
  | [field] => writeField delimiter field
  | field :: rest => writeField delimiter field ++ delimiter :: joinFields rest

theorem joinFields_cons (field next : List Char) (rest : List (List Char)) :
    joinFields delimiter (field :: next :: rest) =
      writeField delimiter field ++ delimiter :: joinFields delimiter (next :: rest) := by
  rw [joinFields]
  simp

/-- A single empty field is quoted, since a row without text has no field. -/
def rowText (fields : List (List Char)) : List Char :=
  if fields = [[]] then ['"','"'] else joinFields delimiter fields

def writeRow (fields : List (List Char)) : List Char := rowText delimiter fields ++ ['\r','\n']

end Writing

section Reading

inductive Phase where
  | startRecord
  | startField
  | inField
  | inQuotedField
  | quoteInQuotedField
  | eatCrnl
deriving DecidableEq

structure Reader where
  phase : Phase
  fields : List (List Char)
  field : List Char
deriving DecidableEq

namespace Reader
variable (delimiter : Char) (self : Reader)

def save (phase : Phase) : Reader := ⟨phase,self.fields ++ [self.field],[]⟩

def add (phase : Phase) (c : Char) : Reader := ⟨phase,self.fields,self.field ++ [c]⟩

def atField (c : Char) : Reader :=
  if isBreak c then self.save .eatCrnl
  else if c = '"' then { self with phase := .inQuotedField }
  else if c = delimiter then self.save .startField
  else self.add .inField c

/-- One character; a character behind the end of a line is an error. -/
def process (c : Char) : Option Reader :=
  match self.phase with
  | .startRecord => some (if isBreak c then { self with phase := .eatCrnl } else self.atField delimiter c)
  | .startField => some (self.atField delimiter c)
  | .inField =>
    some (if isBreak c then self.save .eatCrnl
      else if c = delimiter then self.save .startField
      else self.add .inField c)
  | .inQuotedField =>
    some (if c = '"' then { self with phase := .quoteInQuotedField } else self.add .inQuotedField c)
  | .quoteInQuotedField =>
    some (if c = '"' then self.add .inQuotedField c
      else if c = delimiter then self.save .startField
      else if isBreak c then self.save .eatCrnl
      else self.add .inField c)
  | .eatCrnl => if isBreak c then some self else none

/-- Where the line ends, in a quoted field too. -/
def finish : List (List Char) :=
  match self.phase with
  | .startRecord => self.fields
  | .eatCrnl => self.fields
  | _ => (self.save .startRecord).fields

end Reader

def readRow (delimiter : Char) (line : List Char) : Option (List (List Char)) :=
  (line.foldlM (Reader.process delimiter) ⟨.startRecord,[],[]⟩).map Reader.finish

end Reading

section Lines

/-- The lines of a text with their ends, of which there are three kinds. -/
def splitLines : List Char → List (List Char)
  | [] => []
  | '\r' :: '\n' :: rest => ['\r','\n'] :: splitLines rest
  | c :: rest =>
    if isBreak c then [c] :: splitLines rest
    else
      match splitLines rest with
      | [] => [[c]]
      | line :: lines => (c :: line) :: lines

end Lines

section RoundTrip
variable {delimiter : Char}

/-- All fields are read, the last of which is not closed. -/
structure Reader.Holds (self : Reader) (fields : List (List Char)) : Prop where
  phase : self.phase = .startField ∨ self.phase = .inField ∨ self.phase = .quoteInQuotedField
  fields : self.fields ++ [self.field] = fields

theorem Reader.Holds.delimited {self : Reader} {fields : List (List Char)} (holds : self.Holds fields)
    (unquoted : delimiter ≠ '"') (unbroken : isBreak delimiter = false) :
    self.process delimiter delimiter = some ⟨.startField,fields,[]⟩ := by
  obtain ⟨phase | phase | phase,rfl⟩ := holds <;>
    simp [Reader.process,phase,Reader.atField,unbroken,unquoted,Reader.save]

theorem Reader.Holds.ended {self : Reader} {fields : List (List Char)} (holds : self.Holds fields) (c : Char)
    (breaks : isBreak c = true) (undelimited : c ≠ delimiter) :
    self.process delimiter c = some ⟨.eatCrnl,fields,[]⟩ := by
  have unquoted : c ≠ '"' := by
    rintro rfl
    cases breaks
  obtain ⟨phase | phase | phase,rfl⟩ := holds <;>
    simp [Reader.process,phase,Reader.atField,breaks,unquoted,undelimited,Reader.save]

variable (delimiter) in
theorem read_plain (self : Reader) (inField : self.phase = .inField) (text : List Char)
    (plain : needsQuotes delimiter text = false) :
    text.foldlM (Reader.process delimiter) self = some { self with field := self.field ++ text } := by
  induction text generalizing self with
  | nil => simp
  | cons c rest ih =>
    obtain ⟨undelimited,-,unbroken,plain⟩ := (needsQuotes_cons delimiter c rest).mp plain
    have step : self.process delimiter c = some (self.add .inField c) := by
      simp [Reader.process,inField,unbroken,undelimited]
    rw [List.foldlM_cons,step,Option.bind_eq_bind,Option.bind_some,ih (self.add .inField c) rfl plain]
    simp [Reader.add,inField]

variable (delimiter) in
theorem read_doubled (self : Reader) (quoted : self.phase = .inQuotedField) (text : List Char) :
    (doubled text).foldlM (Reader.process delimiter) self = some { self with field := self.field ++ text } := by
  induction text generalizing self with
  | nil => simp [doubled]
  | cons c rest ih =>
    have goes := ih (self.add .inQuotedField c) rfl
    have read : ({ self with phase := .inQuotedField, field := self.field ++ [c] ++ rest } : Reader) =
        { self with field := self.field ++ c :: rest } := by simp [quoted]
    by_cases quote : c = '"'
    · subst quote
      have first : self.process delimiter '"' = some { self with phase := .quoteInQuotedField } := by
        simp [Reader.process,quoted]
      rw [doubled,if_pos rfl,List.foldlM_cons,first,← read]
      exact goes
    · have first : self.process delimiter c = some (self.add .inQuotedField c) := by
        simp [Reader.process,quoted,quote]
      rw [doubled,if_neg quote,List.foldlM_cons,first,← read]
      exact goes

variable (delimiter) in
/-- A field is read from its text. -/
theorem read_field (done : List (List Char)) (field : List Char) : ∃ after,
    (writeField delimiter field).foldlM (Reader.process delimiter) ⟨.startField,done,[]⟩ = some after ∧
      after.Holds (done ++ [field]) := by
  unfold writeField
  cases quotes : needsQuotes delimiter field with
  | true =>
    refine ⟨⟨.quoteInQuotedField,done,field⟩,?_,.inr (.inr rfl),rfl⟩
    have opened : Reader.process delimiter ⟨.startField,done,[]⟩ '"' = some ⟨.inQuotedField,done,[]⟩ := by
      simp [Reader.process,Reader.atField,isBreak]
    have inside := read_doubled delimiter ⟨.inQuotedField,done,[]⟩ rfl field
    rw [if_pos rfl,List.foldlM_cons,opened,Option.bind_eq_bind,Option.bind_some,List.foldlM_append,inside]
    rfl
  | false =>
    rw [if_neg Bool.false_ne_true]
    cases field with
    | nil => exact ⟨⟨.startField,done,[]⟩,rfl,.inl rfl,rfl⟩
    | cons c rest =>
      refine ⟨⟨.inField,done,c :: rest⟩,?_,.inr (.inl rfl),rfl⟩
      obtain ⟨undelimited,unquoted,unbroken,plain⟩ := (needsQuotes_cons delimiter c rest).mp quotes
      have opened : Reader.process delimiter ⟨.startField,done,[]⟩ c = some ⟨.inField,done,[c]⟩ := by
        simp [Reader.process,Reader.atField,unbroken,unquoted,undelimited,Reader.add]
      have inside := read_plain delimiter ⟨.inField,done,[c]⟩ rfl rest plain
      rw [List.foldlM_cons,opened]
      exact inside

theorem read_join (unquoted : delimiter ≠ '"') (unbroken : isBreak delimiter = false) (fields : List (List Char))
    (some : fields ≠ []) (done : List (List Char)) : ∃ after,
      (joinFields delimiter fields).foldlM (Reader.process delimiter) ⟨.startField,done,[]⟩ = .some after ∧
        after.Holds (done ++ fields) := by
  induction fields generalizing done with
  | nil => exact absurd rfl some
  | cons field rest ih =>
    obtain ⟨middle,reads,holds⟩ := read_field delimiter done field
    cases rest with
    | nil => exact ⟨middle,reads,holds⟩
    | cons next rest =>
      obtain ⟨after,readsOn,holdsOn⟩ := ih (List.cons_ne_nil _ _) (done ++ [field])
      refine ⟨after,?_,by simpa using holdsOn⟩
      rw [joinFields_cons,List.foldlM_append,reads,Option.bind_eq_bind,Option.bind_some,List.foldlM_cons,
        holds.delimited unquoted unbroken]
      exact readsOn

variable (delimiter) in
/-- Only an empty field is written without a character that could start a line. -/
theorem writeField_head (field : List Char) :
    (∃ c rest, writeField delimiter field = c :: rest ∧ isBreak c = false) ∨
      writeField delimiter field = [] ∧ field = [] := by
  unfold writeField
  cases quotes : needsQuotes delimiter field with
  | true => exact .inl ⟨'"',_,rfl,rfl⟩
  | false =>
    cases field with
    | nil => exact .inr ⟨rfl,rfl⟩
    | cons c rest => exact .inl ⟨c,rest,rfl,((needsQuotes_cons delimiter c rest).mp quotes).2.2.1⟩

theorem rowText_head (unbroken : isBreak delimiter = false) (fields : List (List Char)) (some : fields ≠ []) :
    ∃ c rest, rowText delimiter fields = c :: rest ∧ isBreak c = false := by
  unfold rowText
  split
  · exact ⟨'"',['"'],rfl,rfl⟩
  · rename_i notEmpty
    obtain ⟨field,others,rfl⟩ := List.exists_cons_of_ne_nil some
    cases others with
    | nil =>
      rcases writeField_head delimiter field with starts | ⟨-,rfl⟩
      · exact starts
      · exact absurd rfl notEmpty
    | cons next others =>
      rw [joinFields_cons]
      rcases writeField_head delimiter field with ⟨c,rest,text,plain⟩ | ⟨text,-⟩
      · exact ⟨c,_,by rw [text]; rfl,plain⟩
      · exact ⟨delimiter,_,by rw [text]; rfl,unbroken⟩

theorem read_rowText (unquoted : delimiter ≠ '"') (unbroken : isBreak delimiter = false) (fields : List (List Char))
    (some : fields ≠ []) : ∃ after,
      (rowText delimiter fields).foldlM (Reader.process delimiter) ⟨.startRecord,[],[]⟩ = .some after ∧
        after.Holds fields := by
  -- The row does not start with a break, so the record starts as a field does.
  obtain ⟨c,rest,text,plain⟩ := rowText_head unbroken fields some
  have start : (rowText delimiter fields).foldlM (Reader.process delimiter) ⟨.startRecord,[],[]⟩ =
      (rowText delimiter fields).foldlM (Reader.process delimiter) ⟨.startField,[],[]⟩ := by
    rw [text,List.foldlM_cons,List.foldlM_cons]
    simp [Reader.process,plain,Reader.atField,Reader.save,Reader.add]
  rw [start,rowText]
  split
  · rename_i single
    subst single
    exact ⟨⟨.quoteInQuotedField,[],[]⟩,by simp [Reader.process,Reader.atField,isBreak],.inr (.inr rfl),rfl⟩
  · exact read_join unquoted unbroken fields some []

variable (delimiter) in
theorem readRow_writeRow (unquoted : delimiter ≠ '"') (unbroken : isBreak delimiter = false)
    (fields : List (List Char)) (some : fields ≠ []) : readRow delimiter (writeRow delimiter fields) = .some fields := by
  obtain ⟨after,reads,holds⟩ := read_rowText unquoted unbroken fields some
  have undelimited : '\r' ≠ delimiter := by
    rintro rfl
    cases unbroken
  have ended := holds.ended '\r' rfl undelimited
  rw [readRow,writeRow,List.foldlM_append,reads,Option.bind_eq_bind,Option.bind_some,List.foldlM_cons,ended]
  rfl

end RoundTrip

section LineBreaks

theorem splitLines_plain (text rest : List Char) (plain : text.any isBreak = false) :
    splitLines (text ++ '\r' :: '\n' :: rest) = (text ++ ['\r','\n']) :: splitLines rest := by
  induction text with
  | nil => rw [List.nil_append,splitLines]; rfl
  | cons c text ih =>
    rw [List.any_cons,Bool.or_eq_false_iff] at plain
    rw [List.cons_append,splitLines,if_neg (by simp [plain.1]),ih plain.2]
    · rfl
    · rintro - rfl -
      cases plain.1

/-- Two characters that are no line end together. -/
theorem splitLines_cons (c : Char) (text : List Char) (apart : ∀ rest, c = '\r' → text ≠ '\n' :: rest) :
    (splitLines (c :: text)).length =
      if isBreak c then (splitLines text).length + 1 else max 1 (splitLines text).length := by
  rw [splitLines]
  · split
    · rfl
    · cases splitLines text with
      | nil => rfl
      | cons line lines => simp
  · exact fun rest carriage feed => apart rest carriage feed

theorem behind {c : Char} {text rest : List Char} (apart : ∀ rest, c = '\r' → text = '\n' :: rest → False) :
    ∀ others, c = '\r' → text ++ '\r' :: '\n' :: rest ≠ '\n' :: others := by
  intro others carriage starts
  cases text with
  | nil => cases starts
  | cons next text =>
    obtain ⟨rfl,-⟩ := List.cons.inj starts
    exact apart text carriage rfl

/-- Every break in front of a line end makes one more line. -/
theorem splitLines_length (text rest : List Char) :
    (splitLines rest).length + (if text.any isBreak then 2 else 1) ≤
      (splitLines (text ++ '\r' :: '\n' :: rest)).length := by
  have least : ∀ broken : Bool, 1 ≤ if broken then 2 else 1 := by decide
  induction text using splitLines.induct with
  | case1 => simp [splitLines]
  | case2 text ih =>
    have more := least (text.any isBreak)
    rw [List.cons_append,List.cons_append,splitLines,List.length_cons]
    simp only [List.any_cons,show isBreak '\r' = true from rfl,Bool.true_or,if_true]
    omega
  | case3 c text apart breaks ih =>
    have more := least (text.any isBreak)
    rw [List.cons_append,splitLines_cons c _ (behind apart),if_pos breaks,List.any_cons,breaks,Bool.true_or,
      if_pos rfl]
    omega
  | case4 c text apart plain none ih | case5 c text apart plain line lines some ih =>
    rw [List.cons_append,splitLines_cons c _ (behind apart),if_neg plain,List.any_cons,
      Bool.eq_false_iff.mpr plain,Bool.false_or]
    omega

theorem doubled_breaks (field : List Char) : (doubled field).any isBreak = field.any isBreak := by
  induction field with
  | nil => rfl
  | cons c rest ih =>
    rw [doubled]
    split
    · rename_i quote
      simp [ih,quote,isBreak]
    · simp [ih]

theorem writeField_breaks (delimiter : Char) (field : List Char) :
    (writeField delimiter field).any isBreak = field.any isBreak := by
  unfold writeField
  split
  · simp [doubled_breaks,isBreak]
  · rfl

/-- A row has the line breaks of its fields. -/
theorem rowText_breaks {delimiter : Char} (unbroken : isBreak delimiter = false) (fields : List (List Char)) :
    (rowText delimiter fields).any isBreak = fields.any fun field => field.any isBreak := by
  have joined : (joinFields delimiter fields).any isBreak = fields.any fun field => field.any isBreak := by
    induction fields with
    | nil => rfl
    | cons field rest ih =>
      cases rest with
      | nil => simp [joinFields,writeField_breaks]
      | cons next rest =>
        rw [joinFields_cons,List.any_append,List.any_cons,unbroken,Bool.false_or,ih,writeField_breaks]
        rfl
  unfold rowText
  split
  · rename_i single
    rw [single]
    rfl
  · exact joined

end LineBreaks
end IndyNode.Csv
