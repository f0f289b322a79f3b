-- Texts in quotes. A text that is written between quotes, with every quote inside it doubled, is
-- read as one leaf that comes to the text; and what the scanner takes for a text is written so.
import Worksheet.Proofs.Formula.Results
import Worksheet.Proofs.Formula.Spacing

namespace Worksheet.Formula

open Worksheet.Text (disclose disclose_enclose enclose)

theorem toList_enclose (s : String) : (enclose s).toList = quotedChars s.toList := by
  rw [enclose, String.toList_ofList, quotedChars]

theorem scan_enclose (s : String) :
    scan ("=" ++ enclose s) = .ok [Symbol.equal.token 0, ⟨.text, enclose s, 1⟩] := by
  have last : ([] : List Char).head? = some '"' → '"' ∉ ([] : List Char).tail := nofun
  have quoted : Scanned 1 (quotedChars s.toList ++ [])
      [⟨.text, .ofList (quotedChars s.toList), 1⟩] :=
    .token (lexeme?_quotedChars s.toList last) (.done _)
  rw [List.append_nil, ← toList_enclose, String.ofList_toList] at quoted
  have whole : ("=" ++ enclose s).toList = '=' :: (enclose s).toList := String.toList_append ..
  exact (quoted.symbol rfl rfl).scan_eq whole

theorem parse_enclose (s : String) (limit : Limit) :
    parse ("=" ++ enclose s) limit =
      .ok ⟨"=" ++ enclose s, .atom ⟨.text, enclose s, 1⟩⟩ := by
  have leaf : Derives .primary [⟨.text, enclose s, 1⟩] (.atom ⟨.text, enclose s, 1⟩) := .text rfl
  refine parse_eq_ok_iff.2 ⟨rfl, ?_, _, scan_enclose s, leaf.of_primary, limit.allows_atom _⟩
  rw [String.toList_append]
  rfl

theorem exists_quote_of_text {cs : List Char} {n : Nat}
    (found : lexeme? cs = some ⟨some .text, n⟩) : ∃ r, cs = '"' :: r := by
  unfold lexeme? at found
  split at found
  · cases found
  split at found
  · cases found
  split at found
  · rename_i closes
    unfold textLength at closes
    split at closes
    · exact ⟨_, rfl⟩
    · cases closes
  split at found
  · cases found
  · obtain ⟨s, _, same⟩ := Option.map_eq_some_iff.1 found
    cases same

/-- A token that is a text is written in quotes, with the quotes inside it doubled. -/
theorem Token.Lone.exists_enclose {t : Token} (h : t.Lone) (kind : t.kind = .text) :
    ∃ s, t.text = enclose s := by
  unfold Token.Lone at h
  rw [kind] at h
  obtain ⟨front, chars⟩ := exists_quote_of_text h
  have found : lexeme? ('"' :: front ++ []) = some ⟨some .text, front.length + 1⟩ := by
    rw [List.append_nil, ← chars, h, chars]
    rfl
  obtain ⟨_, s, quoted, _⟩ := quoted_of_lexeme? found
  refine ⟨.ofList s, String.toList_inj.1 ?_⟩
  rw [toList_enclose, String.toList_ofList, chars, quoted]

/-- Texts come back out of quotes. An equals sign and a text in quotes, with every quote inside it
doubled, are read as a formula of one leaf, which spans all that is after the sign and comes to the
text. A token that is a text comes to one that is written as the token again. -/
theorem quoted_text_comes_back :
    (∀ (s : String) (limit : Limit), ∃ f, parse ("=" ++ enclose s) limit = .ok f ∧
      ∃ leaf : Part, f.parts = [(.formula f, 0), (.sign, 1), (leaf, 1)] ∧
        leaf.label = "TextToken" ∧ leaf.start = 1 ∧ leaf.stop = f.text.length ∧
        ∀ lookup, f.outcome lookup = .ok (.text s)) ∧
    ∀ text ts, scan text = .ok ts → ∀ t ∈ ts, t.kind = .text → ∃ a s, t.atom? = some a ∧
      (∀ lookup, (a.value lookup).outcome = .ok (.text s)) ∧ enclose s = t.text := by
  constructor
  · intro s limit
    refine ⟨_, parse_enclose s limit, .expr (.atom ⟨.text, enclose s, 1⟩), ?_, rfl, rfl, ?_, ?_⟩
    · rw [parts, walk_eq_outline]
      rfl
    · change 1 + (enclose s).length = ("=" ++ enclose s).length
      rw [String.length_append]
      rfl
    · intro lookup
      rw [outcome_eq]
      exact congrArg (fun s => Except.ok (Value.text s)) (disclose_enclose s)
  · intro text ts scanned t member kind
    have lone := (scanned_of_scanFrom scanned).lone t member
    obtain ⟨s, written⟩ := lone.exists_enclose kind
    refine ⟨⟨.text, t.text, t.start⟩, s, by simp only [Token.atom?, kind], fun lookup => ?_,
      written.symm⟩
    rw [written]
    exact congrArg (fun s => Except.ok (Value.text s)) (disclose_enclose s)

/-- A text that starts and ends in quotes, beside one that holds a sign, a blank and the end of a
line. -/
theorem quoted_text_comes_back_of_hi :
    (∃ f, parse "=\"\"\"hi\"\"\"" usualLimit = .ok f ∧
      ∀ lookup, f.outcome lookup = .ok (.text "\"hi\"")) ∧
    ∃ ts, scan "=a1&\"\"\"+ \n\"" = .ok ts ∧ ∃ t ∈ ts, t.kind = .text ∧
      ∃ a s, t.atom? = some a ∧ (∀ lookup, (a.value lookup).outcome = .ok (.text s)) ∧
        enclose s = "\"\"\"+ \n\"" := by
  obtain ⟨write, read⟩ := quoted_text_comes_back
  constructor
  · obtain ⟨f, parsed, _, _, _, _, _, comes⟩ := write "\"hi\"" usualLimit
    have text : "=" ++ enclose "\"hi\"" = "=\"\"\"hi\"\"\"" := by decide
    exact ⟨f, text ▸ parsed, comes⟩
  · have found : (scan "=a1&\"\"\"+ \n\"").toOption =
        some [⟨.symbol .equal, "=", 0⟩, ⟨.name, "a1", 1⟩, ⟨.symbol .join, "&", 3⟩,
          ⟨.text, "\"\"\"+ \n\"", 4⟩] := by
      decide +kernel
    have scanned := eq_ok_of_toOption found
    refine ⟨_, scanned, ⟨.text, "\"\"\"+ \n\"", 4⟩, by simp, rfl, ?_⟩
    exact read _ _ scanned _ (by simp) rfl

end Worksheet.Formula
