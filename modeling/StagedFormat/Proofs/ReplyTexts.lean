import Mathlib.Algebra.Group.Int.Defs
import StagedFormat.Daemon.Reply
import StagedFormat.Proofs.NumberTexts
import StagedFormat.Proofs.TextPieces

/-! Replies as text. A reply is read back from what is sent for it; and a text is read as a reply exactly if
its first line is a number of 32 bits between white space. -/

namespace StagedFormat.Proofs.ReplyTexts
open StagedFormat Daemon TextPieces NumberTexts

def Blank (text : List Char) : Prop := ∀ c ∈ text, Text.isWhiteSpace c

inductive Cut : List Char → List Char → List Char → Prop where
  | ended {line body} : '\n' ∉ line → Cut (line ++ '\n' :: body) line body
  | endless {line} : '\n' ∉ line → Cut line line []

/-- The first line of a text is a number, with white space around it or not. -/
def Carries (raw : String) (code : Int) (body : String) : Prop :=
  ∃ before number after, Cut raw.toList (before ++ number ++ after) body.toList ∧
    Blank before ∧ Blank after ∧ Signed number code

private theorem cut_total (raw : List Char) : ∃ line body, Cut raw line body := by
  by_cases ended : '\n' ∈ raw
  · obtain ⟨line, body, rfl, first⟩ := List.eq_append_cons_of_mem ended
    exact ⟨line, body, .ended first⟩
  · exact ⟨raw, [], .endless ended⟩

theorem Cut.split {raw line body : List Char} (cut : Cut raw line body) :
    (Text.splitOnce '\n' raw).getD (raw, []) = (line, body) := by
  cases cut with
  | ended first => rw [splitOnce_append first, Option.getD_some]
  | endless none => rw [splitOnce_absent none, Option.getD_none]

private theorem trim_split (text : List Char) :
    ∃ before after, text = before ++ Text.trim text ++ after ∧ Blank before ∧ Blank after := by
  obtain ⟨after, split, blank⟩ := dropEndWhile_split Text.isWhiteSpace (Text.trimStart text)
  refine ⟨text.takeWhile Text.isWhiteSpace, after, ?_, fun c => List.mem_takeWhile_imp, blank⟩
  calc text
    _ = text.takeWhile Text.isWhiteSpace ++ Text.trimStart text := List.takeWhile_append_dropWhile.symm
    _ = _ := by rw [List.append_assoc]; exact congrArg _ split

private theorem trim_solid {before text after : List Char} (first : Blank before) (last : Blank after)
    (solid : ∀ c ∈ text, Text.isWhiteSpace c = false) (nonempty : text ≠ []) :
    Text.trim (before ++ text ++ after) = text := by
  have start : Text.trimStart (before ++ text ++ after) = text ++ after := by
    obtain ⟨c, rest, rfl⟩ := List.exists_cons_of_ne_nil nonempty
    have visible := solid c List.mem_cons_self
    rw [Text.trimStart, List.append_assoc, List.dropWhile_append_of_pos first, List.cons_append,
      List.dropWhile_cons_of_neg (by simp [visible])]
  obtain ⟨rest, c, rfl⟩ := (List.eq_nil_or_concat' text).resolve_left nonempty
  have visible := solid c (List.mem_append_right rest List.mem_cons_self)
  rw [Text.trim, start, Text.trimEnd, dropEndWhile_blanks last,
    dropEndWhile_concat (by simp [visible])]

private theorem parse_cut {raw : String} {line body : List Char} (cut : Cut raw.toList line body) :
    Reply.parse raw =
      match Text.readInt 0x80000000 0x7FFFFFFF (Text.trim line) with
      | .ok code => .ok { code := Int32.ofInt code, body := String.ofList body }
      | .error _ => .error ("bad exit code in response: " ++ (String.ofList line).quoted) := by
  cases read : Text.readInt 0x80000000 0x7FFFFFFF (Text.trim line) with
  | ok code => simp only [Reply.parse, cut.split, read]
  | error problem => simp only [Reply.parse, cut.split, read]

private theorem parse_carried {raw : String} {reply : Reply} (carried : Carries raw reply.code.toInt reply.body) :
    Reply.parse raw = .ok reply := by
  obtain ⟨before, number, after, cut, first, last, written⟩ := carried
  have least := reply.code.le_toInt
  have most := reply.code.toInt_lt
  have read : Text.readInt 0x80000000 0x7FFFFFFF number = .ok reply.code.toInt :=
    readInt_iff.mpr ⟨written, by omega, by omega⟩
  obtain ⟨nonempty, solid⟩ := written.solid
  rw [parse_cut cut, trim_solid first last solid nonempty, read]
  simp only [Int32.ofInt_toInt, String.ofList_toList]

private theorem carried_of_parse {raw : String} {reply : Reply} (read : Reply.parse raw = .ok reply) :
    Carries raw reply.code.toInt reply.body := by
  obtain ⟨line, body, cut⟩ := cut_total raw.toList
  obtain ⟨before, after, split, first, last⟩ := trim_split line
  rw [parse_cut cut] at read
  split at read
  · rename_i code number
    cases read
    obtain ⟨written, least, most⟩ := readInt_iff.mp number
    have same : (Int32.ofInt code).toInt = code := Int32.toInt_ofInt_of_le (by omega) (by omega)
    refine ⟨before, Text.trim line, after, ?_, first, last, ?_⟩
    · rwa [← split, String.toList_ofList]
    · rwa [same]
  · cases read

private theorem carries_wire (reply : Reply) : Carries reply.wire reply.code.toInt reply.body := by
  have written := signed_toString reply.code.toInt
  refine ⟨[], (toString reply.code.toInt).toList, [], ?_, nofun, nofun, written⟩
  have endless : '\n' ∉ (toString reply.code.toInt).toList := fun member =>
    absurd (written.solid.2 '\n' member) (by decide)
  rw [List.nil_append, List.append_nil, Reply.wire, String.toList_append, String.toList_append, List.append_assoc]
  exact .ended endless

theorem parse_wire (reply : Reply) : Reply.parse reply.wire = .ok reply := parse_carried (carries_wire reply)

/-- Every reply is read back from what is sent for it. A text is read as a reply exactly if its first line is
a number that fits into 32 bits: this is the code then, and what comes after the line is the body. -/
theorem reply_codec :
    (∀ reply : Reply, Reply.parse reply.wire = .ok reply) ∧
    ∀ raw : String,
      (∀ reply : Reply, Reply.parse raw = .ok reply ↔ Carries raw reply.code.toInt reply.body) ∧
      ((∃ reply, Reply.parse raw = .ok reply) ↔
        ∃ code body, Carries raw code body ∧ -2 ^ 31 ≤ code ∧ code < 2 ^ 31) := by
  refine ⟨parse_wire, fun raw => ⟨fun reply => ⟨carried_of_parse, parse_carried⟩, ?_, ?_⟩⟩
  · rintro ⟨reply, read⟩
    exact ⟨_, _, carried_of_parse read, reply.code.le_toInt, reply.code.toInt_lt⟩
  · rintro ⟨code, body, carried, least, most⟩
    refine ⟨{ code := Int32.ofInt code, body }, parse_carried ?_⟩
    rwa [Int32.toInt_ofInt_of_le least most]

end StagedFormat.Proofs.ReplyTexts
