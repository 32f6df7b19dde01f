import IndyNode.Control.Dependencies
import IndyNode.Control.DebianVersions
import IndyNode.Python
import Mathlib.Data.List.DropRight
import Mathlib.Data.List.TakeWhile
import Mathlib.Data.List.Forall2

/-! The descriptions of packages that `dpkg` and `apt` print, as the control tool reads them. The
reader takes lines apart by their first words and dependencies by commas; of what a dependency says
it keeps the name and the version. -/
namespace IndyNode.Control

section Reading

/-- `text.strip(chars)`. -/
def strip (chars text : List Char) : List Char :=
  (text.dropWhile fun c => c ∈ chars).rdropWhile fun c => c ∈ chars

/-- `text.split(separator, maxsplit=1)`: the first part, and the second if there is one. -/
def splitOnce (separator : Char) (text : List Char) : List Char × Option (List Char) :=
  match text.dropWhile fun c => c ≠ separator with
  | [] => (text,none)
  | _::rest => (text.takeWhile fun c => c ≠ separator,some rest)

/-- `deps.replace("|", ",").replace("(", "").replace(")", "")`. -/
def flattened (deps : List Char) : List Char :=
  (deps.map fun c => if c = '|' then ',' else c).filter fun c => c ≠ '(' ∧ c ≠ ')'

def parseDep (pkg : List Char) : List Char :=
  match splitOnce ' ' (strip [' '] pkg) with
  | (name,none) => strip [' ','\n'] name
  | (name,some rest) => strip [' ','\n'] name ++ '=' :: strip ['(',')','<','>','=',' ','\n'] rest

def parseDeps (deps : List Char) : List (List Char) :=
  (((flattened deps).splitOn ',').filter fun pkg => pkg ≠ []).map parseDep

/-- `_pkgs_dedup`, on the texts. -/
def pkgsDedupTexts (processed : List (List Char)) : List (List Char) → List (List Char)
  | [] => []
  | dep :: rest =>
    if processed.contains (splitOnce '=' dep).1 then pkgsDedupTexts processed rest
    else dep :: pkgsDedupTexts ((splitOnce '=' dep).1 :: processed) rest

/-- `act_line.split(":", maxsplit=1)[1].strip(" \n")`, for a line with a colon. -/
def fieldValue (actLine : List Char) : List Char := strip [' ','\n'] ((splitOnce ':' actLine).2.getD [])

/-- The variables of the loop over the lines. -/
structure Scan where
  ver : Option (List Char)
  extDeps : List (List Char)
  numPkgs : Nat

def scanLine (scan : Scan) (line : List Char) : Scan :=
  let actLine := strip [' ','\n'] line
  let scan := if "Version:".toList.isPrefixOf actLine then
      { scan with numPkgs := scan.numPkgs + 1,
                  ver := if scan.numPkgs + 1 > 1 then none else some (fieldValue actLine) }
    else scan
  if "Depends:".toList.isPrefixOf actLine then
    { scan with extDeps := scan.extDeps ++ parseDeps (fieldValue actLine) }
  else scan

def scanLines (output : List Char) : Scan := (output.splitOn '\n').foldl scanLine ⟨none,[],0⟩

def parseVersionDepsFromPkgMgrOutput {U : Type} (upstreamCls : Option (String → Option U)) (output : List Char) :
    Option (DebianVersion U) × List (List Char) :=
  let scan := scanLines output
  match scan.ver,upstreamCls with
  | some ver,some upstreamCls =>
    if ver = [] then (none,pkgsDedupTexts [] scan.extDeps)
    else match debianVersion upstreamCls (String.ofList ver) false with
      | some version => (some version,pkgsDedupTexts [] scan.extDeps)
      | none => (none,[])
  | _,_ => (none,pkgsDedupTexts [] scan.extDeps)

/-- `p, v = d.split("=")`, or the name alone. -/
def readConstraint (dep : List Char) : Except Raised Constraint :=
  match dep.splitOn '=' with
  | [name] => .ok ⟨String.ofList name,none⟩
  | [name,version] => .ok ⟨String.ofList name,some (String.ofList version)⟩
  | _ => .error .valueError

end Reading

section Descriptions

/-- A character of a name or a version. -/
def plainChar (c : Char) : Bool := c ∉ [' ','\n',',','|','(',')','=','<','>']

abbrev Word := {text : String // text ≠ "" ∧ text.toList.all plainChar = true}

inductive Relation where
  | earlier
  | atMost
  | exactly
  | atLeast
  | later
deriving DecidableEq, Repr

def Relation.sign : Relation → String
  | .earlier => "<<"
  | .atMost => "<="
  | .exactly => "="
  | .atLeast => ">="
  | .later => ">>"

/-- A package, perhaps in some versions only. -/
structure Requirement where
  name : Word
  version : Option (Relation × Word)

def Requirement.print (requirement : Requirement) : List Char :=
  match requirement.version with
  | none => requirement.name.val.toList
  | some (relation,version) => requirement.name.val.toList ++
      " (".toList ++ relation.sign.toList ++ ' ' :: (version.val.toList ++ [')'])

/-- The name and the version, whatever the relation is. -/
def Requirement.constraint (requirement : Requirement) : Constraint :=
  ⟨requirement.name.val,requirement.version.map fun version => version.2.val⟩

/-- One of them is enough. -/
structure Alternatives where
  choices : List Requirement
  any : choices ≠ []

def Alternatives.print (alternatives : Alternatives) : List Char :=
  " | ".toList.intercalate (alternatives.choices.map Requirement.print)

def printDepends (depends : List Alternatives) : List Char :=
  ", ".toList.intercalate (depends.map Alternatives.print)

/-- The line is taken for the version or for the dependencies, whatever stands before it. -/
def looksLikeField (text : List Char) : Bool :=
  "Version:".toList.isPrefixOf (strip [' ','\n'] text) || "Depends:".toList.isPrefixOf (strip [' ','\n'] text)

/-- A line is the version, the dependencies, or one that does not look like these. -/
inductive ControlLine where
  | versionLine (version : Word)
  | dependsLine (depends : List Alternatives) (any : depends ≠ [])
  | otherLine (text : List Char) (single : '\n' ∉ text) (unlike : looksLikeField text = false)

def ControlLine.print : ControlLine → List Char
  | .versionLine version => "Version: ".toList ++ version.val.toList
  | .dependsLine depends _ => "Depends: ".toList ++ printDepends depends
  | .otherLine text _ _ => text

def printLines (lines : List ControlLine) : List Char := ['\n'].intercalate (lines.map ControlLine.print)

def ControlLine.version? : ControlLine → Option Word
  | .versionLine version => some version
  | _ => none

/-- The constraints of a line: every choice of every alternative. -/
def ControlLine.constraints : ControlLine → List Constraint
  | .dependsLine depends _ => depends.flatMap fun alternatives => alternatives.choices.map Requirement.constraint
  | _ => []

/-- `name=version`, or the name alone. -/
def Constraint.text (constraint : Constraint) : List Char :=
  match constraint.version with
  | none => constraint.name.toList
  | some version => constraint.name.toList ++ '=' :: version.toList

end Descriptions

section Texts

private theorem word_plain (word : Word) (c : Char) (member : c ∈ word.val.toList) : plainChar c = true :=
  List.all_eq_true.mp word.property.2 c member

private theorem word_nonempty (word : Word) : word.val.toList ≠ [] := fun empty =>
  word.property.1 (String.toList_eq_nil_iff.mp empty)

private theorem plain_ne {c : Char} (plain : plainChar c = true) :
    c ≠ ' ' ∧ c ≠ '\n' ∧ c ≠ ',' ∧ c ≠ '|' ∧ c ≠ '(' ∧ c ≠ ')' ∧ c ≠ '=' ∧ c ≠ '<' ∧ c ≠ '>' := by
  simpa [plainChar] using plain

private theorem dropWhile_lead {chars before text : List Char} (lead : ∀ c ∈ before, c ∈ chars)
    (starts : ∀ c, text.head? = some c → c ∉ chars) :
    ((before ++ text).dropWhile fun c => c ∈ chars) = text := by
  rw [List.dropWhile_append_of_pos fun c member => by simpa using lead c member]
  cases text with
  | nil => rfl
  | cons c text => rw [List.dropWhile_cons_of_neg (by simpa using starts c rfl)]

private theorem strip_padded {chars before text after : List Char} (lead : ∀ c ∈ before, c ∈ chars)
    (trail : ∀ c ∈ after, c ∈ chars) (starts : ∀ c, text.head? = some c → c ∉ chars)
    (ends : ∀ c, text.getLast? = some c → c ∉ chars) (any : text ≠ []) :
    strip chars (before ++ text ++ after) = text := by
  have front : ((before ++ (text ++ after)).dropWhile fun c => c ∈ chars) = text ++ after := by
    refine dropWhile_lead lead fun c head => starts c ?_
    rwa [List.head?_append_of_ne_nil _ any] at head
  have back : ((after.reverse ++ text.reverse).dropWhile fun c => c ∈ chars) = text.reverse := by
    refine dropWhile_lead (fun c member => trail c (List.mem_reverse.mp member)) fun c head => ends c ?_
    rwa [List.head?_reverse] at head
  rw [strip,List.append_assoc,front,List.rdropWhile,List.reverse_append,back,List.reverse_reverse]

private theorem strip_ends {chars text : List Char} (starts : ∀ c, text.head? = some c → c ∉ chars)
    (ends : ∀ c, text.getLast? = some c → c ∉ chars) (any : text ≠ []) : strip chars text = text := by
  have bare := @strip_padded chars [] text [] (by simp) (by simp) starts ends any
  rwa [List.nil_append,List.append_nil] at bare

private theorem splitOnce_absent {separator : Char} {text : List Char} (absent : separator ∉ text) :
    splitOnce separator text = (text,none) := by
  have all : (text.dropWhile fun c => c ≠ separator) = [] := by
    rw [List.dropWhile_eq_nil_iff]
    intro c member
    exact decide_eq_true fun same => absent (same ▸ member)
  rw [splitOnce,all]

private theorem splitOnce_first {separator : Char} {text rest : List Char} (absent : separator ∉ text) :
    splitOnce separator (text ++ separator :: rest) = (text,some rest) := by
  have pass : ∀ c ∈ text, decide (c ≠ separator) = true := by
    intro c member
    exact decide_eq_true fun same => absent (same ▸ member)
  have stops : ((text ++ separator :: rest).dropWhile fun c => c ≠ separator) = separator :: rest := by
    rw [List.dropWhile_append_of_pos pass,List.dropWhile_cons_of_neg (by simp)]
  have takes : ((text ++ separator :: rest).takeWhile fun c => c ≠ separator) = text := by
    rw [List.takeWhile_append_of_pos pass,List.takeWhile_cons_of_neg (by simp),List.append_nil]
  rw [splitOnce,stops,takes]

end Texts

section Dependencies

/-- The text between its commas, with spaces around it. -/
def Padded (dep piece : List Char) : Prop :=
  ∃ before after, piece = List.replicate before ' ' ++ dep ++ List.replicate after ' '

/-- Cut at its commas, the text has these pieces, up to spaces around them. -/
def Pieces (deps : List (List Char)) (text : List Char) : Prop := List.Forall₂ Padded deps (text.splitOn ',')

private theorem splitOn_join (separator : Char) (first second : List Char) :
    (first ++ separator :: second).splitOn separator = first.splitOn separator ++ second.splitOn separator := by
  simp only [List.splitOn_eq_splitOnP]
  exact List.splitOnP_append_cons first second (by simp)

private theorem splitOn_whole {text : List Char} {separator : Char} (absent : separator ∉ text) :
    text.splitOn separator = [text] := by
  have single := @List.splitOn_intercalate Char [text] _ _ separator (by simpa using absent) (by simp)
  rwa [List.intercalate_singleton] at single

private theorem pieces_single {dep piece : List Char} (padded : Padded dep piece) (absent : ',' ∉ piece) :
    Pieces [dep] piece := by
  rw [Pieces,splitOn_whole absent]
  exact .cons padded .nil

private theorem Pieces.join {first second : List (List Char)} {before after : List Char} (one : Pieces first before)
    (two : Pieces second after) : Pieces (first ++ second) (before ++ ',' :: after) := by
  rw [Pieces,splitOn_join]
  exact List.rel_append one two

private theorem Pieces.lead {deps : List (List Char)} {text : List Char} (pieces : Pieces deps text) :
    Pieces deps (' ' :: text) := by
  have pushed : (' ' :: text).splitOn ',' = (text.splitOn ',').modifyHead (' ' :: ·) := by
    simp only [List.splitOn_eq_splitOnP]
    rw [List.splitOnP_cons_eq_if_modifyHead,if_neg (by decide)]
  rw [Pieces,pushed]
  rw [Pieces] at pieces
  generalize text.splitOn ',' = parts at pieces
  cases pieces with
  | nil => exact .nil
  | cons padded rest =>
    obtain ⟨before,after,rfl⟩ := padded
    exact .cons ⟨before + 1,after,rfl⟩ rest

/-- The text of a requirement without its parentheses. -/
def Requirement.words (requirement : Requirement) : List Char :=
  match requirement.version with
  | none => requirement.name.val.toList
  | some (relation,version) => requirement.name.val.toList ++
      ' ' :: (relation.sign.toList ++ ' ' :: version.val.toList)

private theorem flattened_append (first second : List Char) :
    flattened (first ++ second) = flattened first ++ flattened second := by
  simp [flattened]

private theorem flattened_intercalate (separator : List Char) (texts : List (List Char)) :
    flattened (separator.intercalate texts) = (flattened separator).intercalate (texts.map flattened) := by
  induction texts with
  | nil => rfl
  | cons text texts ih =>
    cases texts with
    | nil => simp
    | cons second texts =>
      rw [List.intercalate_cons_cons,flattened_append,flattened_append,ih]
      simp only [List.map_cons,List.intercalate_cons_cons]

private theorem flattened_kept {text : List Char} (kept : ∀ c ∈ text, c ≠ '|' ∧ c ≠ '(' ∧ c ≠ ')') :
    flattened text = text := by
  have same : (text.map fun c => if c = '|' then ',' else c) = text := by
    refine (List.map_congr_left fun c member => ?_).trans (List.map_id text)
    rw [if_neg (kept c member).1,id]
  rw [flattened,same,List.filter_eq_self]
  intro c member
  simpa using (kept c member).2

private theorem flattened_word (word : Word) : flattened word.val.toList = word.val.toList := by
  refine flattened_kept fun c member => ?_
  obtain ⟨_,_,_,bar,opened,closed,_⟩ := plain_ne (word_plain word c member)
  exact ⟨bar,opened,closed⟩

private theorem flattened_requirement (requirement : Requirement) :
    flattened requirement.print = requirement.words := by
  obtain ⟨name,version⟩ := requirement
  cases version with
  | none => exact flattened_word name
  | some bound =>
    obtain ⟨relation,version⟩ := bound
    have sign : flattened relation.sign.toList = relation.sign.toList := by
      cases relation <;> rfl
    have spaced : ∀ text : List Char, ' ' :: text = [' '] ++ text := fun _ => rfl
    simp only [Requirement.print,Requirement.words]
    rw [spaced (version.val.toList ++ [')'])]
    simp only [flattened_append,flattened_word,sign]
    simp [flattened]

private theorem words_nonempty (requirement : Requirement) : requirement.words ≠ [] := by
  obtain ⟨name,version⟩ := requirement
  cases version with
  | none => exact word_nonempty name
  | some bound => simp [Requirement.words]

private theorem words_starts (requirement : Requirement) (c : Char) (starts : requirement.words.head? = some c) :
    plainChar c = true := by
  obtain ⟨name,version⟩ := requirement
  have first : name.val.toList.head? = some c := by
    cases version with
    | none => exact starts
    | some bound => rwa [Requirement.words,List.head?_append_of_ne_nil _ (word_nonempty name)] at starts
  exact word_plain name c (List.mem_of_head? first)

private theorem words_ends (requirement : Requirement) (c : Char) (ends : requirement.words.getLast? = some c) :
    plainChar c = true := by
  obtain ⟨name,version⟩ := requirement
  cases version with
  | none => exact word_plain name c (List.mem_of_getLast? ends)
  | some bound =>
    obtain ⟨relation,version⟩ := bound
    have shape : Requirement.words ⟨name,some (relation,version)⟩ =
        (name.val.toList ++ ' ' :: (relation.sign.toList ++ [' '])) ++ version.val.toList := by
      simp [Requirement.words]
    rw [shape,List.getLast?_append_of_ne_nil _ (word_nonempty version)] at ends
    exact word_plain version c (List.mem_of_getLast? ends)

private theorem word_without (word : Word) {c : Char} (special : plainChar c = false) : c ∉ word.val.toList := by
  intro member
  rw [word_plain word c member] at special
  exact Bool.false_ne_true special.symm

private theorem words_uncommaed (requirement : Requirement) : ',' ∉ requirement.words := by
  obtain ⟨name,version⟩ := requirement
  cases version with
  | none => exact word_without name rfl
  | some bound =>
    obtain ⟨relation,version⟩ := bound
    have sign : ',' ∉ relation.sign.toList := by
      cases relation <;> decide
    simp only [Requirement.words,List.mem_append,List.mem_cons,not_or]
    exact ⟨word_without name rfl,by decide,sign,by decide,word_without version rfl⟩

private theorem word_ends (word : Word) {chars : List Char} (special : (chars.any plainChar) = false) :
    (∀ c, word.val.toList.head? = some c → c ∉ chars) ∧ ∀ c, word.val.toList.getLast? = some c → c ∉ chars := by
  have apart : ∀ c ∈ word.val.toList, c ∉ chars := by
    intro c member listed
    exact List.any_eq_false.mp special c listed (word_plain word c member)
  exact ⟨fun c head => apart c (List.mem_of_head? head),fun c last => apart c (List.mem_of_getLast? last)⟩

private theorem strip_word (word : Word) {chars : List Char} (special : (chars.any plainChar) = false) :
    strip chars word.val.toList = word.val.toList :=
  strip_ends (word_ends word special).1 (word_ends word special).2 (word_nonempty word)

/-- Spaces around a requirement and its parentheses do not matter, and its relation is lost. -/
theorem parseDep_words (requirement : Requirement) {piece : List Char} (padded : Padded requirement.words piece) :
    parseDep piece = requirement.constraint.text := by
  obtain ⟨before,after,rfl⟩ := padded
  have spaces : ∀ count, ∀ c ∈ List.replicate count ' ', c ∈ [' '] := fun count c member =>
    List.mem_singleton.mpr (List.eq_of_mem_replicate member)
  have plain : ∀ c, plainChar c = true → c ∉ [' '] := fun c plain listed =>
    (plain_ne plain).1 (List.mem_singleton.mp listed)
  have stripped : strip [' '] (List.replicate before ' ' ++ requirement.words ++ List.replicate after ' ') =
      requirement.words :=
    strip_padded (spaces before) (spaces after) (fun c head => plain c (words_starts requirement c head))
      (fun c last => plain c (words_ends requirement c last)) (words_nonempty requirement)
  rw [parseDep,stripped]
  obtain ⟨name,version⟩ := requirement
  have bare : strip [' ','\n'] name.val.toList = name.val.toList := strip_word name rfl
  cases version with
  | none =>
    rw [Requirement.words,splitOnce_absent (word_without name rfl)]
    exact bare
  | some bound =>
    obtain ⟨relation,version⟩ := bound
    have version_only : strip ['(',')','<','>','=',' ','\n'] (relation.sign.toList ++ ' ' :: version.val.toList) =
        version.val.toList := by
      have signs : ∀ c ∈ relation.sign.toList ++ [' '], c ∈ ['(',')','<','>','=',' ','\n'] := by
        cases relation <;> simp [Relation.sign]
      obtain ⟨starts,ends⟩ := @word_ends version ['(',')','<','>','=',' ','\n'] rfl
      have padded := @strip_padded _ (relation.sign.toList ++ [' ']) version.val.toList [] signs (by simp) starts ends
        (word_nonempty version)
      simpa using padded
    rw [Requirement.words,splitOnce_first (word_without name rfl)]
    simp only [bare,version_only]
    rfl

private theorem pieces_alternatives (choices : List Requirement) (any : choices ≠ []) :
    Pieces (choices.map Requirement.words) ([' ',',',' '].intercalate (choices.map Requirement.words)) := by
  induction choices with
  | nil => exact absurd rfl any
  | cons choice choices ih =>
    cases choices with
    | nil =>
      refine pieces_single ⟨0,0,by simp⟩ ?_
      simpa using words_uncommaed choice
    | cons second choices =>
      have first : Pieces [choice.words] (choice.words ++ [' ']) := by
        refine pieces_single ⟨0,1,by simp⟩ ?_
        simpa using words_uncommaed choice
      have both := first.join (ih (by simp)).lead
      simpa [List.intercalate_cons_cons] using both

private theorem pieces_depends (depends : List Alternatives) (any : depends ≠ []) :
    Pieces (depends.flatMap fun alternatives => alternatives.choices.map Requirement.words)
      (flattened (printDepends depends)) := by
  have separators : flattened ", ".toList = [',',' '] ∧ flattened " | ".toList = [' ',',',' '] := ⟨rfl,rfl⟩
  have group : ∀ alternatives : Alternatives, flattened alternatives.print =
      [' ',',',' '].intercalate (alternatives.choices.map Requirement.words) := by
    intro alternatives
    rw [Alternatives.print,flattened_intercalate,separators.2,List.map_map]
    exact congrArg _ (List.map_congr_left fun choice _ => flattened_requirement choice)
  rw [printDepends,flattened_intercalate,separators.1,List.map_map]
  induction depends with
  | nil => exact absurd rfl any
  | cons alternatives depends ih =>
    have first := pieces_alternatives alternatives.choices alternatives.any
    rw [← group] at first
    cases depends with
    | nil => simpa using first
    | cons second depends =>
      have both := first.join (ih (by simp)).lead
      simpa [List.intercalate_cons_cons] using both

private theorem parseDeps_print (depends : List Alternatives) (any : depends ≠ []) :
    parseDeps (printDepends depends) =
      (depends.flatMap fun alternatives => alternatives.choices.map Requirement.constraint).map Constraint.text := by
  have pieces := pieces_depends depends any
  rw [Pieces,← List.map_flatMap,List.forall₂_map_left_iff] at pieces
  rw [parseDeps,← List.map_flatMap,List.map_map]
  generalize (flattened (printDepends depends)).splitOn ',' = parts at pieces ⊢
  generalize depends.flatMap Alternatives.choices = requirements at pieces ⊢
  induction pieces with
  | nil => rfl
  | @cons requirement piece _ _ padded _ ih =>
    have present : piece ≠ [] := by
      obtain ⟨before,after,rfl⟩ := padded
      simp [words_nonempty requirement]
    rw [List.filter_cons_of_pos (by simpa using present),List.map_cons,List.map_cons,ih,
      parseDep_words requirement padded]
    rfl

end Dependencies

section Lines

/-- The text neither starts nor ends with a space, and is one line. -/
structure Trimmed (text : List Char) : Prop where
  any : text ≠ []
  starts : ∀ c, text.head? = some c → c ∉ [' ','\n']
  ends : ∀ c, text.getLast? = some c → c ∉ [' ','\n']
  single : '\n' ∉ text

private theorem Trimmed.between {first second : List Char} (one : Trimmed first) (two : Trimmed second)
    {between : List Char}
    (single : '\n' ∉ between) : Trimmed (first ++ between ++ second) := by
  refine ⟨by simp [one.any],fun c head => ?_,fun c last => ?_,?_⟩
  · rw [List.append_assoc,List.head?_append_of_ne_nil _ one.any] at head
    exact one.starts c head
  · rw [List.getLast?_append_of_ne_nil _ two.any] at last
    exact two.ends c last
  · simp only [List.mem_append,not_or]
    exact ⟨⟨one.single,single⟩,two.single⟩

private theorem trimmed_intercalate {separator : List Char} (single : '\n' ∉ separator) (texts : List (List Char))
    (any : texts ≠ []) (trimmed : ∀ text ∈ texts, Trimmed text) : Trimmed (separator.intercalate texts) := by
  induction texts with
  | nil => exact absurd rfl any
  | cons text texts ih =>
    cases texts with
    | nil => simpa using trimmed text (by simp)
    | cons second texts =>
      rw [List.intercalate_cons_cons]
      exact (trimmed text (by simp)).between (ih (by simp) fun other member => trimmed other (by simp [member])) single

private theorem trimmed_word (word : Word) : Trimmed word.val.toList :=
  ⟨word_nonempty word,(word_ends word rfl).1,(word_ends word rfl).2,word_without word rfl⟩

private theorem trimmed_requirement (requirement : Requirement) : Trimmed requirement.print := by
  obtain ⟨name,version⟩ := requirement
  cases version with
  | none => exact trimmed_word name
  | some bound =>
    obtain ⟨relation,version⟩ := bound
    have closing : Trimmed [')'] := ⟨by simp,by simp,by simp,by simp⟩
    have sign : '\n' ∉ " (".toList ++ relation.sign.toList ++ [' '] := by
      cases relation <;> decide
    have whole := (trimmed_word name).between
      ((trimmed_word version).between closing List.not_mem_nil) sign
    simpa [Requirement.print] using whole

private theorem trimmed_depends (depends : List Alternatives) (any : depends ≠ []) : Trimmed
    (printDepends depends) := by
  refine trimmed_intercalate (by decide) _ (by simpa using any) fun text member => ?_
  obtain ⟨alternatives,_,rfl⟩ := List.mem_map.mp member
  refine trimmed_intercalate (by decide) _ (by simpa using alternatives.any) fun text member => ?_
  obtain ⟨choice,_,rfl⟩ := List.mem_map.mp member
  exact trimmed_requirement choice

private theorem Trimmed.strip {text : List Char} (trimmed : Trimmed text) : strip [' ','\n'] text = text :=
  strip_ends trimmed.starts trimmed.ends trimmed.any

private theorem fieldValue_print {key value : List Char} (colon : ':' ∉ key) (trimmed : Trimmed value) :
    fieldValue (key ++ ':' :: ' ' :: value) = value := by
  rw [fieldValue,splitOnce_first colon]
  have padded := @strip_padded [' ','\n'] [' '] value [] (by simp) (by simp) trimmed.starts trimmed.ends trimmed.any
  simpa using padded

private theorem scanLine_version (scan : Scan) (version : Word) :
    scanLine scan (ControlLine.versionLine version).print = { scan with
      numPkgs := scan.numPkgs + 1, ver := if scan.numPkgs + 1 > 1 then none else some version.val.toList } := by
  have label : Trimmed "Version:".toList := ⟨by simp,by simp,by simp,by simp⟩
  have line : Trimmed (ControlLine.versionLine version).print :=
    label.between (trimmed_word version) (by decide : '\n' ∉ [' '])
  have value : fieldValue (ControlLine.versionLine version).print = version.val.toList :=
    fieldValue_print (by decide : ':' ∉ "Version".toList) (trimmed_word version)
  have starts : "Version:".toList.isPrefixOf (ControlLine.versionLine version).print = true := rfl
  have unlike : "Depends:".toList.isPrefixOf (ControlLine.versionLine version).print = false := rfl
  simp only [scanLine,line.strip,value,starts,unlike,if_true,Bool.false_eq_true,if_false]

private theorem scanLine_depends (scan : Scan) (depends : List Alternatives) (any : depends ≠ []) :
    scanLine scan (ControlLine.dependsLine depends any).print = { scan with
      extDeps := scan.extDeps ++ (ControlLine.dependsLine depends any).constraints.map Constraint.text } := by
  have label : Trimmed "Depends:".toList := ⟨by simp,by simp,by simp,by simp⟩
  have line : Trimmed (ControlLine.dependsLine depends any).print :=
    label.between (trimmed_depends depends any) (by decide : '\n' ∉ [' '])
  have value : fieldValue (ControlLine.dependsLine depends any).print = printDepends depends :=
    fieldValue_print (by decide : ':' ∉ "Depends".toList) (trimmed_depends depends any)
  have unlike : "Version:".toList.isPrefixOf (ControlLine.dependsLine depends any).print = false := rfl
  have starts : "Depends:".toList.isPrefixOf (ControlLine.dependsLine depends any).print = true := rfl
  simp only [scanLine,line.strip,value,starts,unlike,if_true,Bool.false_eq_true,if_false,
    parseDeps_print depends any,ControlLine.constraints]

private theorem scanLine_other (scan : Scan) (text : List Char) (unlike : looksLikeField text = false) :
    scanLine scan text = scan := by
  obtain ⟨version,depends⟩ := Bool.or_eq_false_iff.mp unlike
  simp only [scanLine,version,depends,Bool.false_eq_true,if_false]

private theorem line_single (line : ControlLine) : '\n' ∉ line.print := by
  cases line with
  | versionLine version =>
    exact fun member => (List.mem_append.mp member).elim (by decide) (word_without version rfl)
  | dependsLine depends any =>
    exact fun member => (List.mem_append.mp member).elim (by decide) (trimmed_depends depends any).single
  | otherLine text single unlike => exact single

/-- The one version, if there is one. -/
def onlyVersion : List Word → Option (List Char)
  | [version] => some version.val.toList
  | _ => none

private theorem onlyVersion_snoc (versions : List Word) (version : Word) :
    onlyVersion (versions ++ [version]) = if versions.length + 1 > 1 then none else some version.val.toList := by
  match versions with
  | [] => rfl
  | [_] => rfl
  | _::_::_ => simp [onlyVersion]

private theorem scanLine_print (scan : Scan) (line : ControlLine) : scanLine scan line.print = {
    ver := match line.version? with
      | none => scan.ver
      | some version => if scan.numPkgs + 1 > 1 then none else some version.val.toList
    extDeps := scan.extDeps ++ line.constraints.map Constraint.text
    numPkgs := scan.numPkgs + line.version?.toList.length } := by
  cases line with
  | versionLine version =>
    rw [scanLine_version]
    exact congrArg (Scan.mk _ · _) (List.append_nil _).symm
  | dependsLine depends any => exact scanLine_depends scan depends any
  | otherLine text single unlike =>
    refine (scanLine_other scan text unlike).trans ?_
    exact congrArg (Scan.mk _ · _) (List.append_nil _).symm

private theorem scan_printed (lines : List ControlLine) :
    (lines.map ControlLine.print).foldl scanLine ⟨none,[],0⟩ =
      ⟨onlyVersion (lines.filterMap ControlLine.version?),
        (lines.flatMap ControlLine.constraints).map Constraint.text,(lines.filterMap ControlLine.version?).length⟩ := by
  induction lines using List.reverseRecOn with
  | nil => rfl
  | append_singleton lines line ih =>
    rw [List.map_append,List.foldl_append,ih,List.map_singleton,List.foldl_cons,List.foldl_nil,scanLine_print,
      List.filterMap_append,List.flatMap_append,List.map_append]
    cases versioned : line.version? with
    | none =>
      rw [List.filterMap_cons_none versioned,List.filterMap_nil,List.append_nil]
      simp
    | some version =>
      rw [List.filterMap_cons_some versioned,List.filterMap_nil,onlyVersion_snoc]
      simp

end Lines

section Results

private theorem text_name (constraint : Constraint) (plain : '=' ∉ constraint.name.toList) :
    (splitOnce '=' constraint.text).1 = constraint.name.toList := by
  unfold Constraint.text
  cases constraint.version with
  | none => exact congrArg Prod.fst (splitOnce_absent plain)
  | some version => exact congrArg Prod.fst (splitOnce_first plain)

private theorem pkgsDedupTexts_text (processed : List String) (constraints : List Constraint)
    (plain : ∀ constraint ∈ constraints, '=' ∉ constraint.name.toList) :
    pkgsDedupTexts (processed.map String.toList) (constraints.map Constraint.text) =
      (pkgsDedup processed constraints).map Constraint.text := by
  induction constraints generalizing processed with
  | nil => rfl
  | cons constraint rest ih =>
    have later : ∀ other ∈ rest, '=' ∉ other.name.toList := fun other member => plain other (by simp [member])
    have named : (processed.map String.toList).contains constraint.name.toList = true ↔ constraint.name ∈ processed := by
      simp [String.toList_inj]
    rw [List.map_cons,pkgsDedupTexts,text_name constraint (plain constraint (by simp)),pkgsDedup]
    by_cases seen : constraint.name ∈ processed
    · rw [if_pos (named.mpr seen),if_pos seen,ih processed later]
    · rw [if_neg (seen ∘ named.mp),if_neg seen,List.map_cons,← ih (constraint.name :: processed) later]
      rfl

private theorem readConstraint_text (constraint : Constraint) (plain : '=' ∉ constraint.name.toList)
    (versionPlain : ∀ version, constraint.version = some version → '=' ∉ version.toList) :
    readConstraint constraint.text = .ok constraint := by
  obtain ⟨name,version⟩ := constraint
  cases version with
  | none => simp only [readConstraint,Constraint.text,splitOn_whole plain,String.ofList_toList]
  | some version =>
    simp only [readConstraint,Constraint.text,splitOn_join,splitOn_whole plain,
      splitOn_whole (versionPlain version rfl),List.singleton_append,String.ofList_toList]

private theorem constraints_plain (lines : List ControlLine) (constraint : Constraint)
    (member : constraint ∈ lines.flatMap ControlLine.constraints) : '=' ∉ constraint.name.toList ∧
      ∀ version, constraint.version = some version → '=' ∉ version.toList := by
  obtain ⟨line,_,listed⟩ := List.mem_flatMap.mp member
  cases line with
  | versionLine version => exact absurd listed List.not_mem_nil
  | otherLine text single unlike => exact absurd listed List.not_mem_nil
  | dependsLine depends any =>
    obtain ⟨alternatives,_,chosen⟩ := List.mem_flatMap.mp listed
    obtain ⟨requirement,_,rfl⟩ := List.mem_map.mp chosen
    refine ⟨word_without requirement.name rfl,fun version given => ?_⟩
    obtain ⟨bound,_,rfl⟩ := Option.map_eq_some_iff.mp given
    exact word_without bound.2 rfl

/-- What the lines say of a package: its version, if they give one and it is valid, and the first
constraint for each package it may need. Nothing is known of a package with an invalid version. -/
def describedPackage {U : Type} (upstreamCls : Option (String → Option U)) (lines : List ControlLine) :
    Option (DebianVersion U) × List Constraint :=
  let constraints := pkgsDedup [] (lines.flatMap ControlLine.constraints)
  match lines.filterMap ControlLine.version?,upstreamCls with
  | [version],some upstreamCls =>
    match debianVersion upstreamCls version.val false with
    | some version => (some version,constraints)
    | none => (none,[])
  | _,_ => (none,constraints)

private theorem scanLines_printed (lines : List ControlLine) :
    scanLines (printLines lines) = ⟨onlyVersion (lines.filterMap ControlLine.version?),
      (lines.flatMap ControlLine.constraints).map Constraint.text,(lines.filterMap ControlLine.version?).length⟩ := by
  cases lines with
  | nil => rfl
  | cons line lines =>
    rw [scanLines,printLines,List.splitOn_intercalate '\n' ?_ (by simp),scan_printed]
    intro text member
    obtain ⟨other,_,rfl⟩ := List.mem_map.mp member
    exact line_single other

-- the bounds on either side of a version look the same once read, and the first one counts
example : parseVersionDepsFromPkgMgrOutput (none : Option (String → Option Unit))
    "Version: 1.2\nDepends: a (>= 1.0), b | a (<< 2)".toList = (none,["a=1.0".toList,"b".toList]) := rfl

end Results

end IndyNode.Control
