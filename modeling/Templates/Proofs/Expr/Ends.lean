import Templates.Proofs.Directive.Scan
import Templates.Proofs.Expr.Headers
import Templates.Proofs.Program.Cursor

/-!
Where an expression ends is told alike by the reader of expressions, by the search for the end of a
tag and by the search for the parenthesis that closes a marker.

Each of the three keeps track of quotes by itself. Main statement: around all that is read as an
expression or as a header, both searches stop right behind it.
-/

namespace Templates

/-- A text that may stand in a tag or in a marker: an expression, the header of a loop or an
assignment. -/
inductive Accepted (source : Text) : Prop where
  | expression {base : Nat} {e : Expr} : Expr.read base source = .ok e → Accepted source
  | foreachHeader {base : Nat} {header : ForeachHeader} :
    ForeachHeader.read base source = .ok header → Accepted source
  | rangeHeader {base : Nat} {header : RangeHeader} :
    RangeHeader.read base source = .ok header → Accepted source
  | assignment {base : Nat} {assigned : Assignment} :
    Assignment.read base source = .ok assigned → Accepted source

namespace Accepted

variable {source : Text}

/-- The quotes of an accepted text are closed and its parentheses pair up. -/
theorem balanced (accepted : Accepted source) : Balanced source := by
  cases accepted with
  | expression accepted => exact Expr.grammatical.balanced accepted
  | foreachHeader accepted => exact ForeachHeader.grammatical.balanced accepted
  | rangeHeader accepted => exact RangeHeader.grammatical.balanced accepted
  | assignment accepted => exact Assignment.grammatical.balanced accepted

/-- An accepted text holds no end of a tag outside of its strings. -/
theorem untagged (accepted : Accepted source) : Untagged source := by
  cases accepted with
  | expression accepted => exact Expr.grammatical.untagged accepted
  | foreachHeader accepted => exact ForeachHeader.grammatical.untagged accepted
  | rangeHeader accepted => exact RangeHeader.grammatical.untagged accepted
  | assignment accepted => exact Assignment.grammatical.untagged accepted

end Accepted

/-- The search for the end of a tag passes over an untagged body with blanks around it. -/
theorem TagEnd.search_spaced {body : Text} (untagged : Untagged body) (after : Text) :
    search none (' ' :: body ++ (" %>".toList ++ after)) = found (' ' :: body ++ [' ']) after := by
  have spaced : Untagged (' ' :: body) :=
    .plain (by decide) rfl (fun isPercent => absurd isPercent (by decide)) untagged
  -- A blank stands between the body and the sign that ends the tag.
  have noEnd : (" %>".toList ++ after).head? ≠ some '>' := by simp
  have ends : search none (" %>".toList ++ after) = found [' '] after := rfl
  rw [search_untagged spaced noEnd, ends]
  exact foldr_cons_found (' ' :: body) [' '] after

/-- The cursor stops where the search for the end of a tag does, wherever the tag stands. -/
theorem Cursor.closeFrom_drop {front tail body after : Text}
    (found : TagEnd.search none tail = .found body after) :
    closeFrom (front ++ tail) none (Text.bytes front)
        ((Text.octets (front ++ tail)).drop (Text.bytes front)) =
      some (some (Text.bytes front + Text.bytes body)) := by
  have here : Text.from? (Text.bytes front) (front ++ tail) = some tail :=
    Text.from?_eq_some_iff.mpr ⟨front, rfl, rfl⟩
  rw [Text.drop_octets here, closeFrom_eq (fun _ same => by cases same) here, found]
  rfl

/-- The first marker of a text that begins with an opener is that opener, from end to end. -/
theorem Mark.spans_opener {name expression : Text}
    (starts : name.head?.any Marker.startsName = true)
    (continues : ∀ c ∈ name, Marker.continuesName c = true) (balanced : Balanced expression)
    (rest : Text) :
    (spans 0 (scan (Template.opener name expression ++ rest))).head? =
      some (⟨name, some (Text.trim expression), true, Marker.isClear rest,
        Template.opener name expression⟩, 0, Text.bytes (Template.opener name expression)) := by
  rw [scan, scanFrom_opener starts continues balanced, spans, Nat.zero_add]
  rfl

/-- A tag and a marker around an accepted text both end right behind it: the tag at the sign behind
the blank, whatever stands in front of the tag, and the marker at its parenthesis. -/
theorem Accepted.ends_in_tag_and_marker {source : Text} (accepted : Accepted source)
    (rest : Text) :
    TagEnd.search none (' ' :: source ++ (" %>".toList ++ rest)) =
        .found (' ' :: source ++ [' ']) rest ∧
      (∀ front : Text,
        let artifact := front ++ (' ' :: source ++ (" %>".toList ++ rest))
        Cursor.closeFrom artifact none (Text.bytes front)
            ((Text.octets artifact).drop (Text.bytes front)) =
          some (some (Text.bytes front + Text.bytes (' ' :: source ++ [' '])))) ∧
      ∀ name : Text, name.head?.any Marker.startsName = true →
        (∀ c ∈ name, Marker.continuesName c = true) →
        (Mark.spans 0 (Mark.scan ('@' :: name ++ '(' :: source ++ ')' :: rest))).head? =
          some (⟨name, some (Text.trim source), true, Marker.isClear rest,
            '@' :: name ++ '(' :: source ++ [')']⟩,
            0, Text.bytes ('@' :: name ++ '(' :: source ++ [')'])) := by
  have closes := TagEnd.search_spaced accepted.untagged rest
  refine ⟨closes, fun front => Cursor.closeFrom_drop closes, fun name starts continues => ?_⟩
  -- The opener is the part of the text up to the parenthesis.
  have opened : '@' :: name ++ '(' :: source ++ ')' :: rest =
      Template.opener name source ++ rest := by simp [Template.opener]
  rw [opened]
  exact Mark.spans_opener starts continues accepted.balanced rest

/-- Signs in the strings of an expression, one of them behind a character of two bytes, end neither
the tag nor the marker around it. -/
theorem Accepted.ends_around_signs :
    let source := "prices[\"\\é%>)\"] % (rate ?? 'x\"(')".toList
    let body := ' ' :: source ++ (" %>".toList ++ "'%>".toList)
    let artifact := "é<%=".toList ++ body
    let opener := '@' :: "if".toList ++ '(' :: source ++ [')']
    (Expr.read 0 source).isOk = true ∧
      TagEnd.search none body = .found (' ' :: source ++ [' ']) "'%>".toList ∧
      Cursor.closeFrom artifact none 5 ((Text.octets artifact).drop 5) = some (some 41) ∧
      (Mark.spans 0 (Mark.scan ('@' :: "if".toList ++ '(' :: source ++ ')' :: [' ', ')']))).head? =
        some (⟨"if".toList, some source, true, true, opener⟩, 0, 39) := by
  intro source body artifact opener
  have accepted : (Expr.read 0 source).isOk = true := by decide +kernel
  refine ⟨accepted, ?_⟩
  cases found : Expr.read 0 source with
  | error misread =>
    rw [found] at accepted
    cases accepted
  | ok e =>
    obtain ⟨closes, stops, -⟩ := Accepted.ends_in_tag_and_marker (.expression found) "'%>".toList
    obtain ⟨-, -, marked⟩ := Accepted.ends_in_tag_and_marker (.expression found) [' ', ')']
    -- What is left is to count bytes.
    have front : Text.bytes "é<%=".toList = 5 := by decide +kernel
    have inTag : Text.bytes (' ' :: source ++ [' ']) = 36 := by decide +kernel
    have inMarker : Text.bytes opener = 39 := by decide +kernel
    have trimmed : Text.trim source = source := by decide +kernel
    have cursor := stops "é<%=".toList
    have spans := marked "if".toList rfl (List.all_eq_true.mp rfl)
    rw [front, inTag] at cursor
    rw [trimmed, inMarker] at spans
    exact ⟨closes, cursor, spans⟩

end Templates
