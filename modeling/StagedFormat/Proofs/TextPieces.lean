import Mathlib.Data.List.DropRight
import StagedFormat.Text.Split
import StagedFormat.Text.WhiteSpace

/-! Cutting texts into pieces: at a separator, and where the characters of some kind at an end begin. -/

namespace StagedFormat.Proofs.TextPieces
open StagedFormat

/-! ### Separators -/

theorem mem_splitOnP {α : Type} {separates : α → Bool} {part text : List α}
    (member : part ∈ text.splitOnP separates) : ∀ c ∈ part, separates c = false := by
  induction text generalizing part with
  | nil =>
    rw [List.splitOnP_nil, List.mem_singleton] at member
    subst part
    exact nofun
  | cons c text ih =>
    rw [List.splitOnP_cons_eq_if_modifyHead] at member
    split at member
    · rcases List.mem_cons.mp member with rfl | member
      · exact nofun
      · exact ih member
    · rename_i different
      obtain ⟨first, others, parts⟩ := List.exists_cons_of_ne_nil (List.splitOnP_ne_nil separates text)
      rw [parts, List.modifyHead_cons] at member
      rcases List.mem_cons.mp member with rfl | member
      · intro other inside
        rcases List.mem_cons.mp inside with rfl | inside
        · exact Bool.eq_false_iff.mpr different
        · exact ih (parts ▸ List.mem_cons_self) other inside
      · exact ih (parts ▸ List.mem_cons_of_mem first member)

section
variable {α : Type} [DecidableEq α] {separator : α}

theorem splitOnce_append {front back : List α} (absent : separator ∉ front) :
    Text.splitOnce separator (front ++ separator :: back) = some (front, back) := by
  induction front with
  | nil => exact if_pos rfl
  | cons c front ih =>
    obtain ⟨different, absent⟩ := not_or.mp (mt List.mem_cons.mpr absent)
    rw [List.cons_append, Text.splitOnce, if_neg (Ne.symm different), ih absent]
    rfl

theorem splitOnce_absent {text : List α} (absent : separator ∉ text) :
    Text.splitOnce separator text = none := by
  induction text with
  | nil => rfl
  | cons c text ih =>
    obtain ⟨different, absent⟩ := not_or.mp (mt List.mem_cons.mpr absent)
    rw [Text.splitOnce, if_neg (Ne.symm different), ih absent]
    rfl

end

/-- Dividing into so many parts divides at the first separators. -/
theorem splitInto_splitOn (separator : Char) (count : Nat) (text : List Char) :
    (Text.splitInto separator (count + 1) text).length = min (count + 1) (text.splitOn separator).length ∧
      (Text.splitInto separator (count + 1) text).take count = (text.splitOn separator).take count := by
  induction count generalizing text with
  | zero =>
    have nonempty := List.length_pos_iff.mpr (List.splitOn_ne_nil separator text)
    refine ⟨?_, rfl⟩
    rw [Text.splitInto, List.length_singleton]
    omega
  | succ count ih =>
    by_cases divides : separator ∈ text
    · obtain ⟨before, after, rfl, absent⟩ := List.eq_append_cons_of_mem divides
      obtain ⟨length, parts⟩ := ih after
      have first : (before ++ separator :: after).splitOn separator = before :: after.splitOn separator := by
        rw [List.splitOn_append_cons_self, List.splitOn_eq_singleton absent]
        rfl
      rw [Text.splitInto, splitOnce_append absent, first]
      constructor
      · rw [List.length_cons, List.length_cons, length]
        omega
      · rw [List.take_succ_cons, List.take_succ_cons, parts]
    · rw [Text.splitInto, splitOnce_absent divides, List.splitOn_eq_singleton divides]
      refine ⟨?_, rfl⟩
      rw [List.length_singleton]
      omega

private theorem pieces_append (separator : Char) (front back : List Char) :
    Text.pieces separator (front ++ separator :: back) =
      Text.pieces separator front ++ Text.pieces separator back := by
  rw [Text.pieces, List.splitOn_append_cons_self, List.filter_append]
  rfl

private theorem pieces_whole {separator : Char} {text : List Char} (closed : separator ∉ text)
    (nonempty : text ≠ []) : Text.pieces separator text = [text] := by
  rw [Text.pieces, List.splitOn_eq_singleton closed]
  simp [nonempty]

theorem pieces_first {separator : Char} {text rest : List Char} (closed : separator ∉ text)
    (nonempty : text ≠ []) (ends : ∀ c ∈ rest.head?, c = separator) :
    ∃ later, Text.pieces separator (text ++ rest) = text :: later := by
  cases rest with
  | nil => exact ⟨[], by rw [List.append_nil, pieces_whole closed nonempty]⟩
  | cons c rest =>
    obtain rfl := ends c rfl
    exact ⟨Text.pieces c rest, by rw [pieces_append, pieces_whole closed nonempty]; rfl⟩

theorem pieces_terminated {separator : Char} {texts : List (List Char)}
    (whole : ∀ text ∈ texts, separator ∉ text ∧ text ≠ []) (rest : List Char) :
    Text.pieces separator (texts.flatMap (· ++ [separator]) ++ rest) =
      texts ++ Text.pieces separator rest := by
  induction texts with
  | nil => rfl
  | cons text texts ih =>
    obtain ⟨closed, nonempty⟩ := whole text List.mem_cons_self
    have later := ih fun other member => whole other (.tail text member)
    rw [List.flatMap_cons, List.append_assoc, List.append_assoc, List.singleton_append, pieces_append,
      pieces_whole closed nonempty, later]
    rfl

/-! ### Ends -/

theorem head?_dropWhile {belongs : Char → Bool} {text : List Char} {c : Char}
    (first : (text.dropWhile belongs).head? = some c) : belongs c = false := by
  have ended := List.head?_dropWhile_not belongs text
  rwa [first] at ended

theorem dropEndWhile_split (p : Char → Bool) (text : List Char) :
    ∃ dropped, text = Text.dropEndWhile p text ++ dropped ∧ ∀ c ∈ dropped, p c := by
  refine ⟨(text.reverse.takeWhile p).reverse, ?_, ?_⟩
  · rw [Text.dropEndWhile, ← List.reverse_append, List.takeWhile_append_dropWhile, List.reverse_reverse]
  · intro c member
    exact List.mem_takeWhile_imp (List.mem_reverse.mp member)

theorem dropEndWhile_cons {p : Char → Bool} {c : Char} (keep : ¬ p c) (text : List Char) :
    Text.dropEndWhile p (c :: text) = c :: Text.dropEndWhile p text := by
  simp only [Text.dropEndWhile, List.reverse_cons, List.dropWhile_append]
  split
  · next none => simp [List.isEmpty_iff.mp none, keep]
  · simp

theorem dropEndWhile_blanks {p : Char → Bool} {text run : List Char} (drop : ∀ c ∈ run, p c) :
    Text.dropEndWhile p (text ++ run) = Text.dropEndWhile p text := by
  rw [Text.dropEndWhile, List.reverse_append, List.dropWhile_append_of_pos (by simpa using drop)]
  rfl

theorem dropEndWhile_concat {p : Char → Bool} {c : Char} (keep : ¬ p c) (text : List Char) :
    Text.dropEndWhile p (text ++ [c]) = text ++ [c] := by
  simp [Text.dropEndWhile, keep]

theorem dropEndWhile_idem (p : Char → Bool) (text : List Char) :
    Text.dropEndWhile p (Text.dropEndWhile p text) = Text.dropEndWhile p text := by
  simp [Text.dropEndWhile, List.dropWhile_idempotent]

theorem keeps_last {p : Char → Bool} {text : List Char} {c : Char}
    (same : Text.dropEndWhile p (text ++ [c]) = text ++ [c]) : ¬ p c := by
  intro drop
  rw [dropEndWhile_blanks (by simpa using drop)] at same
  obtain ⟨dropped, whole, _⟩ := dropEndWhile_split p text
  have shorter := congrArg List.length same
  have longer := congrArg List.length whole
  simp only [List.length_append, List.length_singleton] at shorter longer
  omega

end StagedFormat.Proofs.TextPieces
