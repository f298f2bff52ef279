import CallTrace.Model.Signature
import CallTrace.Proofs.Text
import Mathlib.Data.List.TakeWhile

/-!
# Operation signatures are read back

An operation signature has a name, in front of it maybe modifiers and a return type, and parameters,
each a type with maybe further words (`Signature`). There are many ways to write it down, since the
words may be set apart by any blanks, parameters may be surrounded by blanks, and anything but a
closing parenthesis may follow at the end (`Signature.IsWritten`). However it is written, the name,
the return type and the types of the parameters are found again
(`OperationType.ofSignature_of_isWritten`).

All other texts are read as well. The parts of a text can be cut out between the byte offsets of its
parentheses: whatever the text, there are slices with these ends, and the slices are the parts that
are read (`OperationType.slices?_eq`).
-/

namespace CallTrace.Model

open Text

/-! ## Words -/

/-- The characters around parameters. -/
def isMark (c : Char) : Bool := c = ',' || c = '(' || c = ')'

theorem isBlank_of_isMark {c : Char} (hc : isMark c = true) : isBlank c = false := by
  simp only [isMark, Bool.or_eq_true, decide_eq_true_eq] at hc
  obtain (rfl | rfl) | rfl := hc <;> rfl

/-- A word of a signature. -/
structure Word where
  chars : List Char
  ne_nil : chars ≠ []
  plain : chars.all fun c => !isBlank c && !isMark c

namespace Word

/-- The word as a text of its own. -/
def text (word : Word) : String := String.ofList word.chars

theorem not_blank (word : Word) : ∀ c ∈ word.chars, isBlank c = false := by
  intro c hc
  have hplain := List.all_eq_true.mp word.plain c hc
  rw [Bool.and_eq_true, Bool.not_eq_true'] at hplain
  exact hplain.1

theorem not_mark (word : Word) : ∀ c ∈ word.chars, isMark c = false := by
  intro c hc
  have hplain := List.all_eq_true.mp word.plain c hc
  rw [Bool.and_eq_true, Bool.not_eq_true', Bool.not_eq_true'] at hplain
  exact hplain.2

end Word

variable {words : List Word} {text : List Char}

/-- The words stand in the text in this order. There are blanks between them, and there may be
blanks in front of the first one and behind the last one. -/
inductive IsSpaced : List Word → List Char → Prop
  | nil : IsSpaced [] []
  | blank {words : List Word} {c : Char} {text : List Char} (hc : isBlank c = true)
      (rest : IsSpaced words text) : IsSpaced words (c :: text)
  | last (word : Word) : IsSpaced [word] word.chars
  | word (word : Word) {words : List Word} {c : Char} {text : List Char} (hc : isBlank c = true)
      (rest : IsSpaced words text) : IsSpaced (word :: words) (word.chars ++ c :: text)

namespace IsSpaced

theorem words_eq (h : IsSpaced words text) : Text.words text = words.map Word.chars := by
  induction h with
  | nil => rfl
  | blank hc _ ih => rw [words_cons_blank hc, ih]
  | last word => rw [words_of_free word.ne_nil word.not_blank]; rfl
  | word word hc _ ih => rw [words_append word.ne_nil word.not_blank hc, ih, List.map_cons]

theorem not_mark (h : IsSpaced words text) : ∀ c ∈ text, isMark c = false := by
  have of_blank {c : Char} (hc : isBlank c = true) : isMark c = false := by
    cases hmark : isMark c with
    | false => rfl
    | true => rw [isBlank_of_isMark hmark] at hc; cases hc
  induction h with
  | nil => simp
  | blank hc _ ih => exact List.forall_mem_cons.mpr ⟨of_blank hc, ih⟩
  | last word => exact word.not_mark
  | word word hc _ ih =>
    exact List.forall_mem_append.mpr ⟨word.not_mark, List.forall_mem_cons.mpr ⟨of_blank hc, ih⟩⟩

end IsSpaced

/-! ## Signatures -/

/-- A parameter: its type, then maybe a name or other words. -/
structure Parameter where
  type : Word
  further : List Word

/-- The parts of an operation signature. There are modifiers only in front of a return type. -/
structure Signature where
  result : Option (List Word × Word)
  name : Word
  parameters : List Parameter

/-- The words in front of the parameters. -/
def Signature.head (signature : Signature) : List Word :=
  match signature.result with
  | none => [signature.name]
  | some (modifiers, returnType) => modifiers ++ [returnType, signature.name]

/-- The text lists the parameters with commas between them. If there are none, it is blank. -/
inductive IsListed : List Parameter → List Char → Prop
  | nil {text : List Char} (blank : IsSpaced [] text) : IsListed [] text
  | last {parameter : Parameter} {text : List Char}
      (words : IsSpaced (parameter.type :: parameter.further) text) : IsListed [parameter] text
  | cons {parameter next : Parameter} {parameters : List Parameter} {text rest : List Char}
      (words : IsSpaced (parameter.type :: parameter.further) text)
      (others : IsListed (next :: parameters) rest) :
      IsListed (parameter :: next :: parameters) (text ++ ',' :: rest)

/-- Ways to write a signature down. -/
inductive Signature.IsWritten (signature : Signature) : String → Prop
  | mk {head parameters suffix : List Char} (head_spaced : IsSpaced signature.head head)
      (parameters_listed : IsListed signature.parameters parameters) (suffix_open : ')' ∉ suffix) :
      signature.IsWritten (String.ofList (head ++ '(' :: (parameters ++ ')' :: suffix)))

/-- The words with a blank behind each of them. -/
def spaced : List Word → List Char
  | [] => []
  | word :: words => word.chars ++ ' ' :: spaced words

theorem isSpaced_spaced : ∀ words : List Word, IsSpaced words (spaced words)
  | [] => .nil
  | word :: words => .word word rfl (isSpaced_spaced words)

theorem exists_isListed : ∀ parameters : List Parameter, ∃ text, IsListed parameters text
  | [] => ⟨[], .nil .nil⟩
  | [_] => ⟨_, .last (isSpaced_spaced _)⟩
  | _ :: next :: parameters =>
    have ⟨_, hrest⟩ := exists_isListed (next :: parameters)
    ⟨_, .cons (isSpaced_spaced _) hrest⟩

/-- Every signature can be written down. -/
theorem Signature.exists_isWritten (signature : Signature) : ∃ text, signature.IsWritten text := by
  obtain ⟨listed, hlisted⟩ := exists_isListed signature.parameters
  exact ⟨_, .mk (isSpaced_spaced signature.head) hlisted List.not_mem_nil⟩

/-! ## The parts of a signature -/

namespace OperationType

/-- What a signature says, when it is written as this text. -/
def ofWritten (signature : Signature) (text : String) : OperationType where
  signature := text
  name := signature.name.text
  returnType := signature.result.map fun result => result.2.text
  parameterTypes := signature.parameters.map fun parameter => parameter.type.text

/-- What is read from the text before the parameters and the text between the parentheses. -/
def ofParts (signature : String) (head parameters : List Char) : OperationType :=
  let heads := (Text.words head).reverse.map String.ofList
  { signature
    name := heads.head?.getD signature
    returnType := (heads.drop 1).head?
    parameterTypes := (splitBy (· = ',') parameters).filterMap fun parameter =>
      (Text.words parameter).head?.map String.ofList }

theorem ofSignature_eq (signature : String) :
    ofSignature signature = ofParts signature (splitParameters signature.toList).1
      (splitParameters signature.toList).2 := rfl

theorem beforeLast_of_free {p : Char → Bool} {text : List Char} (hfree : ∀ c ∈ text, p c = false) :
    beforeLast p text = text := by
  have hdrop : text.reverse.dropWhile (!p ·) = [] := by
    rw [List.dropWhile_eq_nil_iff]
    simpa using hfree
  rw [beforeLast, hdrop]

theorem beforeLast_append {p : Char → Bool} {c : Char} {before after : List Char}
    (hc : p c = true) (hfree : ∀ c ∈ after, p c = false) :
    beforeLast p (before ++ c :: after) = before := by
  have hdrop : (before ++ c :: after).reverse.dropWhile (!p ·) = c :: before.reverse := by
    have hskip : ∀ d ∈ after.reverse, (!p d) = true := by simpa using hfree
    rw [List.reverse_append, List.reverse_cons, List.append_assoc,
      List.dropWhile_append_of_pos hskip]
    simp [hc]
  rw [beforeLast, hdrop]
  exact List.reverse_reverse before

theorem splitParameters_of_free {text : List Char} (hfree : '(' ∉ text) :
    splitParameters text = (text, []) := by
  have hne : ∀ c ∈ text, decide (c ≠ '(') = true := by simpa using free_of_not_mem hfree
  rw [splitParameters, List.takeWhile_eq_self_iff.mpr hne, List.dropWhile_eq_nil_iff.mpr hne]
  rfl

theorem splitParameters_append {head rest : List Char} (hfree : '(' ∉ head) :
    splitParameters (head ++ '(' :: rest) = (head, beforeLast (· = ')') rest) := by
  have hne : ∀ c ∈ head, decide (c ≠ '(') = true := by simpa using free_of_not_mem hfree
  rw [splitParameters, List.takeWhile_append_of_pos hne, List.dropWhile_append_of_pos hne]
  simp

/-- The last two words in front of the parameters are the return type and the name. -/
theorem ofParts_head {signature : Signature} {head : List Char}
    (hhead : IsSpaced signature.head head) (text : String) (parameters : List Char) :
    (ofParts text head parameters).name = signature.name.text
      ∧ (ofParts text head parameters).returnType
          = signature.result.map fun result => result.2.text := by
  simp only [ofParts, hhead.words_eq, Signature.head]
  cases signature.result with
  | none => exact ⟨rfl, rfl⟩
  | some result => simp [Word.text]

/-- A parameter is read as its type. -/
theorem head?_words {parameter : Parameter} {text : List Char}
    (h : IsSpaced (parameter.type :: parameter.further) text) :
    (Text.words text).head?.map String.ofList = some parameter.type.text := by
  rw [h.words_eq]
  rfl

theorem ofParts_parameters {parameters : List Parameter} {listed : List Char}
    (hlisted : IsListed parameters listed) (text : String) (head : List Char) :
    (ofParts text head listed).parameterTypes
      = parameters.map fun parameter => parameter.type.text := by
  have hfree {words : List Word} {text : List Char} (h : IsSpaced words text) :
      ∀ c ∈ text, decide (c = ',') = false :=
    free_of_not_mem fun hmem => by cases h.not_mark _ hmem
  simp only [ofParts]
  induction hlisted with
  | nil blank => simp [splitBy_of_free (hfree blank), blank.words_eq]
  | last words => simp [splitBy_of_free (hfree words), head?_words words]
  | cons words _ ih =>
    simp only [splitBy_append (hfree words), List.filterMap_cons, head?_words words, ih,
      List.map_cons, decide_true]

theorem ofParts_eq {signature : Signature} {head listed : List Char}
    (hhead : IsSpaced signature.head head) (hlisted : IsListed signature.parameters listed)
    (text : String) : ofParts text head listed = ofWritten signature text := by
  obtain ⟨hname, hreturn⟩ := ofParts_head hhead text listed
  rw [ofWritten, ← hname, ← hreturn, ← ofParts_parameters hlisted text head]
  rfl

/-- However a signature is written, its name, its return type and the types of its parameters are
read back. -/
theorem ofSignature_of_isWritten {signature : Signature} {text : String}
    (h : signature.IsWritten text) : ofSignature text = ofWritten signature text := by
  obtain @⟨head, parameters, suffix, hhead, hlisted, hsuffix⟩ := h
  have hopen : '(' ∉ head := fun hmem => by cases hhead.not_mark _ hmem
  have hparts :
      splitParameters (head ++ '(' :: (parameters ++ ')' :: suffix)) = (head, parameters) := by
    rw [splitParameters_append hopen, beforeLast_append rfl (free_of_not_mem hsuffix)]
  rw [ofSignature_eq, String.toList_ofList, hparts]
  exact ofParts_eq hhead hlisted _

/-! ## Slices -/

/-- The byte offset of the last closing parenthesis, if it comes after the opening one, or of the
end of the text. -/
def closeOffset (signature : String) (opened : Nat) : Nat :=
  ((lastOffset? (· = ')') signature.toList).filter (opened < ·)).getD signature.utf8ByteSize

/-- The text before the first opening parenthesis, and the text between it and the last closing
one, as slices. -/
def slices? (signature : String) : Option (String × String) :=
  match firstOffset? (· = '(') signature.toList with
  | none => some (signature, "")
  | some opened =>
    match slice? signature 0 opened,
      slice? signature (opened + 1) (closeOffset signature opened) with
    | some head, some parameters => some (head, parameters)
    | _, _ => none

/-- Reads an operation signature from its slices. -/
def ofSlices? (signature : String) : Option OperationType :=
  (slices? signature).map fun (head, parameters) =>
    ofParts signature head.toList parameters.toList

theorem closeOffset_eq (head rest : List Char) :
    closeOffset (String.ofList (head ++ '(' :: rest)) (String.utf8Len head)
      = String.utf8Len (head ++ '(' :: beforeLast (· = ')') rest) := by
  obtain hfree | ⟨parameters, c, suffix, rfl, hc, hfree⟩ := free_or_eq_append (· = ')') rest
  · -- a closing parenthesis in front of the opening one does not count
    have hfree' : ∀ c ∈ '(' :: rest, decide (c = ')') = false :=
      List.forall_mem_cons.mpr ⟨rfl, hfree⟩
    have hnone : (lastOffset? (· = ')') head).filter (String.utf8Len head < ·) = none := by
      rw [Option.filter_eq_none_iff]
      intro offset hoffset
      simpa using (lastOffset?_lt hoffset).le
    rw [closeOffset, String.toList_ofList, lastOffset?_append_of_free hfree', hnone,
      beforeLast_of_free hfree, Option.getD_none, String.utf8ByteSize_ofList]
  · have hlt : String.utf8Len head < String.utf8Len (head ++ '(' :: parameters) := by
      rw [String.utf8Len_append, String.utf8Len_cons]
      have hpos := '('.utf8Size_pos
      omega
    have hlast : lastOffset? (· = ')') (head ++ '(' :: (parameters ++ c :: suffix))
        = some (String.utf8Len (head ++ '(' :: parameters)) := by
      rw [← lastOffset?_append hc hfree, List.append_assoc, List.cons_append]
    rw [closeOffset, String.toList_ofList, hlast, beforeLast_append hc hfree,
      Option.filter_some_pos (by simpa using hlt), Option.getD_some]

theorem beforeLast_prefix (p : Char → Bool) (text : List Char) : beforeLast p text <+: text := by
  obtain hfree | ⟨before, c, after, rfl, hc, hfree⟩ := free_or_eq_append p text
  · exact ⟨[], by rw [beforeLast_of_free hfree, List.append_nil]⟩
  · exact ⟨c :: after, by rw [beforeLast_append hc hfree]⟩

/-- The slices of every text exist, and they are the parts that are read. -/
theorem slices?_eq (signature : String) :
    slices? signature = some (String.ofList (splitParameters signature.toList).1,
      String.ofList (splitParameters signature.toList).2) := by
  obtain ⟨text, rfl⟩ : ∃ text, signature = String.ofList text :=
    ⟨signature.toList, String.ofList_toList.symm⟩
  rw [slices?, String.toList_ofList]
  by_cases hopen : '(' ∈ text
  case neg => rw [firstOffset?_of_free (free_of_not_mem hopen), splitParameters_of_free hopen]
  obtain ⟨head, rest, rfl, hhead⟩ := List.eq_append_cons_of_mem hopen
  obtain ⟨suffix, hsuffix⟩ := beforeLast_prefix (· = ')') rest
  have hsuffix' : head ++ ['('] ++ beforeLast (· = ')') rest ++ suffix = head ++ '(' :: rest := by
    rw [List.append_assoc, hsuffix, List.append_assoc, List.singleton_append]
  have hfirst : slice? (String.ofList (head ++ '(' :: rest)) 0 (String.utf8Len head)
      = some (String.ofList head) := slice?_append [] head ('(' :: rest)
  have hsecond : slice? (String.ofList (head ++ '(' :: rest)) (String.utf8Len head + 1)
      (closeOffset (String.ofList (head ++ '(' :: rest)) (String.utf8Len head))
      = some (String.ofList (beforeLast (· = ')') rest)) := by
    have hslice := slice?_append (head ++ ['(']) (beforeLast (· = ')') rest) suffix
    have hopened : String.utf8Len (head ++ ['(']) = String.utf8Len head + 1 :=
      String.utf8Len_append head ['(']
    rw [hsuffix', hopened, List.append_assoc, List.singleton_append] at hslice
    rw [closeOffset_eq, hslice]
  rw [firstOffset?_append (free_of_not_mem hhead) rfl, splitParameters_append hhead]
  simp only [hfirst, hsecond]

/-- There are two closing parentheses, but none behind the opening one. -/
example : slices? ")é) f(int x" = some (")é) f", "int x") := by decide

/-- **Signatures are read back.** Every signature can be written down, and it is read back from each
way to write it. Every text whatsoever is read from slices that exist. -/
theorem signature_read_back :
    (∀ signature : Signature, ∃ text, signature.IsWritten text)
    ∧ (∀ (signature : Signature) (text : String), signature.IsWritten text →
      ofSignature text = ofWritten signature text)
    ∧ ∀ text : String, ofSlices? text = some (ofSignature text) := by
  refine ⟨Signature.exists_isWritten, fun signature text => ofSignature_of_isWritten, ?_⟩
  intro text
  rw [ofSlices?, slices?_eq, ofSignature_eq]
  simp

/-- A modifier, a return type and two parameters, with blanks of all kinds and a suffix. -/
theorem signature_read_back_add :
    (ofSignature "public  int\tadd( int a,long\n) throws E").name = "add"
      ∧ (ofSignature "public  int\tadd( int a,long\n) throws E").returnType = some "int"
      ∧ (ofSignature "public  int\tadd( int a,long\n) throws E").parameterTypes
        = ["int", "long"] := by
  let modifier : Word := ⟨['p', 'u', 'b', 'l', 'i', 'c'], by decide, rfl⟩
  let add : Word := ⟨['a', 'd', 'd'], by decide, rfl⟩
  let int : Word := ⟨['i', 'n', 't'], by decide, rfl⟩
  let long : Word := ⟨['l', 'o', 'n', 'g'], by decide, rfl⟩
  let a : Word := ⟨['a'], by decide, rfl⟩
  let signature : Signature := ⟨some ([modifier], int), add, [⟨int, [a]⟩, ⟨long, []⟩]⟩
  have hhead : IsSpaced signature.head "public  int\tadd".toList :=
    .word modifier rfl (.blank rfl (.word int rfl (.last add)))
  have hfirst : IsSpaced [int, a] " int a".toList := .blank rfl (.word int rfl (.last a))
  have hsecond : IsSpaced [long] "long\n".toList := .word long rfl .nil
  have hlisted : IsListed signature.parameters (" int a".toList ++ ',' :: "long\n".toList) :=
    .cons hfirst (.last hsecond)
  have hsuffix : ')' ∉ " throws E".toList := by decide
  have hwritten : signature.IsWritten "public  int\tadd( int a,long\n) throws E" :=
    .mk hhead hlisted hsuffix
  rw [signature_read_back.2.1 signature _ hwritten]
  exact ⟨rfl, rfl, rfl⟩

end OperationType

end CallTrace.Model
