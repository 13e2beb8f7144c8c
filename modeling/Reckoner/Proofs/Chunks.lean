import Reckoner.CommandLine.Run
import Reckoner.Proofs.Outcome
import Reckoner.Proofs.Trimming
import Reckoner.Service.Payload

/-!
# The chunks of a text

Cut at its blanks, a text falls into chunks. Each of them is read on its own, after the last token of
the one before it, so which blanks stand between two chunks, how many of them, and whether there are
any around the text, has no part in the meaning of the text.
-/

set_option autoImplicit false

namespace Reckoner

open Text

namespace Text

/-- The longest runs of characters that are not blank, in order. -/
def chunks (characters : List Char) : List (List Char) :=
  (characters.splitOnP isBlank).filter fun chunk => !chunk.isEmpty

theorem chunks_append_cons {c : Char} (blank : isBlank c = true) (front rest : List Char) :
    chunks (front ++ c :: rest) = chunks front ++ chunks rest := by
  unfold chunks
  rw [List.splitOnP_append_cons front rest blank, List.filter_append]

theorem chunks_of_visible {front : List Char} (visible : ∀ c ∈ front, isBlank c = false) :
    chunks front = [front].filter fun chunk => !chunk.isEmpty := by
  unfold chunks
  rw [List.splitOnP_eq_singleton visible]

theorem chunks_blanks_append {front : List Char} (blank : ∀ c ∈ front, isBlank c = true)
    (rest : List Char) : chunks (front ++ rest) = chunks rest := by
  induction front with
  | nil => rfl
  | cons c front inner =>
    have first := chunks_append_cons (blank c List.mem_cons_self) [] (front ++ rest)
    exact first.trans (inner fun other member => blank other (List.mem_cons_of_mem c member))

theorem chunks_append_blanks {back : List Char} (blank : ∀ c ∈ back, isBlank c = true)
    (front : List Char) : chunks (front ++ back) = chunks front := by
  cases back with
  | nil => rw [List.append_nil]
  | cons c back =>
    have nothing : chunks back = [] := by
      have all := chunks_blanks_append
        (fun other member => blank other (List.mem_cons_of_mem c member)) []
      rwa [List.append_nil] at all
    rw [chunks_append_cons (blank c List.mem_cons_self), nothing, List.append_nil]

theorem chunks_trimBy {member : Char → Bool} (blank : ∀ c, member c = true → isBlank c = true)
    (characters : List Char) : chunks (trimBy member characters) = chunks characters := by
  obtain ⟨front, back, whole, isFront, isBack⟩ := exists_of_trimBy member characters
  have before := chunks_blanks_append (fun c inside => blank c (isFront c inside))
    (trimBy member characters)
  have behind := chunks_append_blanks (fun c inside => blank c (isBack c inside))
    (front ++ trimBy member characters)
  rw [← whole] at behind
  exact (behind.trans before).symm

theorem chunks_strip (text : String) : chunks (strip text).toList = chunks text.toList := by
  rw [strip, String.toList_ofList]
  exact chunks_trimBy (fun _ blank => blank) text.toList

theorem chunks_trim (text : String) : chunks (trim text).toList = chunks text.toList := by
  rw [trim, String.toList_ofList]
  exact chunks_trimBy (fun _ => isBlank_of_isSpace) text.toList

end Text

namespace Piece

/-- The tokens of chunks that follow the given token, each chunk read on its own. -/
def readChunks (previous : Option Token) : List (List Char) → List Token
  | [] => []
  | chunk :: rest =>
    let found := read previous chunk
    found ++ readChunks (found.getLast?.or previous) rest

theorem readChunks_cons_visible (previous : Option Token) (front : List Char)
    (rest : List (List Char)) :
    readChunks previous ([front].filter (fun chunk => !chunk.isEmpty) ++ rest) =
      read previous front ++ readChunks ((read previous front).getLast?.or previous) rest := by
  cases front with
  | nil => simp
  | cons c front => rfl

/-- A text is read chunk by chunk. -/
theorem read_eq_readChunks (characters : List Char) {front : List Char}
    (visible : ∀ c ∈ front, isBlank c = false) (previous : Option Token) :
    read previous (front ++ characters) = readChunks previous (chunks (front ++ characters)) := by
  -- the front is the part of the chunk at hand that has been passed already
  induction characters generalizing front previous with
  | nil =>
    have alone := readChunks_cons_visible previous front []
    rw [List.append_nil] at alone
    rw [List.append_nil, chunks_of_visible visible, alone]
    simp [readChunks]
  | cons c characters inner =>
    by_cases blank : isBlank c = true
    · have following := @inner [] nofun ((read previous front).getLast?.or previous)
      rw [List.nil_append] at following
      rw [read_append (stops_cons (isStop_of_isBlank blank) characters), read_blank blank,
        chunks_append_cons blank, chunks_of_visible visible, readChunks_cons_visible, following]
    · have longer : ∀ other ∈ front ++ [c], isBlank other = false := by
        intro other member
        rcases List.mem_append.1 member with before | here
        · exact visible other before
        · rw [List.mem_singleton.1 here]
          exact Bool.eq_false_iff.2 blank
      have following := inner longer previous
      rwa [List.append_assoc, List.singleton_append] at following

end Piece

theorem sameMeaning_of_chunks {first second : String}
    (same : chunks first.toList = chunks second.toList) : SameMeaning first second := by
  apply sameMeaning_of_tokens
  have one := @Piece.read_eq_readChunks first.toList [] nofun none
  have two := @Piece.read_eq_readChunks second.toList [] nofun none
  rw [List.nil_append] at one two
  rw [Piece.tokenize_eq_read, Piece.tokenize_eq_read, one, two, same]

/-- Texts with the same chunks have one meaning, whatever blanks stand between these and around
them. So an expression keeps its meaning when the service trims it, and when a line of the input is
stripped. -/
theorem blanks_only_separate :
    (∀ first second : String, chunks first.toList = chunks second.toList →
        SameMeaning first second) ∧
      (∀ text expression : String, Service.readExpression (.string text) = .ok expression →
        SameMeaning expression text) ∧
      ∀ input, ∀ expression ∈ CommandLine.expressionsOfInput input,
        ∃ line ∈ splitAtMark '\n' input.toList, SameMeaning expression (String.ofList line) := by
  refine ⟨fun first second => sameMeaning_of_chunks, ?_, ?_⟩
  · intro text expression accepted
    have trimmed : expression = trim text := by
      unfold Service.readExpression Service.readBoundedText at accepted
      simp only [Service.readText_ofString, bind, Except.bind] at accepted
      split at accepted
      · cases accepted
      · split at accepted
        · cases accepted
        · exact (Except.ok.inj accepted).symm
    rw [trimmed]
    exact sameMeaning_of_chunks (chunks_trim text)
  · intro input expression member
    unfold CommandLine.expressionsOfInput at member
    have inside := (List.mem_filter.1 ((List.takeWhile_sublist _).subset member)).1
    obtain ⟨line, isLine, rfl⟩ := List.mem_map.1 inside
    exact ⟨line, isLine, sameMeaning_of_chunks (chunks_strip _)⟩

/-- A sum with an em space and a tab in it, trimmed by the service, and read from a line. -/
theorem blanks_only_separate_of_sum :
    (chunks "\u2003x\t+ 2e3".toList = chunks "x +  2e3\n".toList ∧
        SameMeaning "\u2003x\t+ 2e3" "x +  2e3\n") ∧
      (Service.readExpression (.string "\u2003x\t+ 2e3") = .ok "x\t+ 2e3" ∧
        SameMeaning "x\t+ 2e3" "\u2003x\t+ 2e3") ∧
      "x\t+ 2e3" ∈ CommandLine.expressionsOfInput "\n\u2003x\t+ 2e3 \nquit" ∧
        ∃ line ∈ splitAtMark '\n' "\n\u2003x\t+ 2e3 \nquit".toList,
          SameMeaning "x\t+ 2e3" (String.ofList line) := by
  obtain ⟨chunked, trimmed, stripped⟩ := blanks_only_separate
  have same : chunks "\u2003x\t+ 2e3".toList = chunks "x +  2e3\n".toList := by decide +kernel
  have accepted : Service.readExpression (.string "\u2003x\t+ 2e3") = .ok "x\t+ 2e3" := rfl
  have member : "x\t+ 2e3" ∈ CommandLine.expressionsOfInput "\n\u2003x\t+ 2e3 \nquit" := by
    decide +kernel
  exact ⟨⟨same, chunked _ _ same⟩, ⟨accepted, trimmed _ _ accepted⟩, member, stripped _ _ member⟩

end Reckoner
