import TableFlow.Json.TextList
import TableFlow.Json.Value

namespace TableFlow.Json

theorem readUnit_control {n : Nat} (h : n < 32) (rest : List Char) :
    readUnit ('0' :: '0' :: Hex.digit (n / 16) :: Hex.digit (n % 16) :: rest) = .ok (n, rest) := by
  have hzero : Hex.value? '0' = some 0 := by decide
  have hhigh : Hex.value? (Hex.digit (n / 16)) = some (n / 16) :=
    Hex.value?_digit ⟨n / 16, by omega⟩
  have hlow : Hex.value? (Hex.digit (n % 16)) = some (n % 16) := Hex.value?_digit ⟨n % 16, by omega⟩
  have hsum : 16 * (n / 16) + n % 16 = n := by omega
  simp [readUnit, hzero, hhigh, hlow, hsum]

theorem readUnicode_control {n : Nat} (h : n < 32) (rest : List Char) :
    readUnicode ('0' :: '0' :: Hex.digit (n / 16) :: Hex.digit (n % 16) :: rest) =
      .ok (Char.ofNat n, rest) := by
  have hlow : n < 0xD800 := by omega
  simp [readUnicode, readUnit_control h, bind, Except.bind, hlow]

theorem readTextFrom_escape (bound : Nat) (c : Char) (rest : List Char) :
    readTextFrom (bound + 1) (escape c ++ rest) =
      (readTextFrom bound rest).map fun p => (c :: p.1, p.2) := by
  have hmap (r : Except Stop (List Char × List Char))
      (f : List Char × List Char → Except Stop (List Char × List Char))
      (hf : ∀ p, f p = .ok (c :: p.1, p.2)) : (r >>= f) = r.map fun p => (c :: p.1, p.2) := by
    cases r with
    | error => rfl
    | ok p => exact hf p
  unfold escape
  split
  case h_8 hquote hback hline hreturn htab hbell hfeed =>
    split
    · rename_i hc
      have hread : readEscape ('u' :: '0' :: '0' :: Hex.digit (c.toNat / 16) ::
          Hex.digit (c.toNat % 16) :: rest) =
          .ok (c, rest) := by
        rw [readEscape, readUnicode_control hc, Char.ofNat_toNat]
      have hbackslash (cs : List Char) : readTextFrom (bound + 1) ('\\' :: cs) =
          readEscape cs >>= fun p => readTextFrom bound p.2 >>= fun q => .ok (p.1 :: q.1, q.2) :=
            rfl
      rw [List.cons_append, hbackslash]
      simp only [List.cons_append, List.nil_append, hread]
      exact hmap _ _ fun _ => rfl
    · rename_i hc
      rw [List.singleton_append, readTextFrom, if_neg hback, if_neg hc]
      · exact hmap _ _ fun _ => rfl
      · exact hquote
  all_goals exact hmap (readTextFrom bound rest) _ fun _ => rfl

theorem readTextFrom_flatMap_escape {bound : Nat} {text : List Char} (h : text.length ≤ bound)
    (rest : List Char) :
    readTextFrom bound (text.flatMap escape ++ '"' :: rest) = .ok (text, rest) := by
  induction text generalizing bound with
  | nil => cases bound <;> rfl
  | cons c text ih =>
      cases bound with
      | zero => simp at h
      | succ bound =>
          rw [List.flatMap_cons, List.append_assoc, readTextFrom_escape,
            ih (Nat.le_of_succ_le_succ h)]
          rfl

theorem one_le_length_escape (c : Char) : 1 ≤ (escape c).length := by
  unfold escape
  split
  case h_8 => split <;> simp
  all_goals simp

theorem length_le_length_flatMap_escape (text : List Char) :
    text.length ≤ (text.flatMap escape).length := by
  induction text with
  | nil => simp
  | cons c text ih =>
      have hc := one_le_length_escape c
      rw [List.flatMap_cons, List.length_append, List.length_cons]
      omega

theorem toList_quote (s : String) :
    (quote s).toList = '"' :: (s.toList.flatMap escape ++ ['"']) := by
  rw [quote, String.toList_ofList, List.cons_append]

theorem readItem_quote (s : String) (rest : List Char) :
    readItem ((quote s).toList ++ rest) = .ok (s, rest) := by
  have hlength : s.toList.length ≤ (s.toList.flatMap escape ++ '"' :: rest).length := by
    have hle := length_le_length_flatMap_escape s.toList
    rw [List.length_append]
    omega
  rw [toList_quote, List.cons_append, List.append_assoc, List.singleton_append, readItem, readText,
    readTextFrom_flatMap_escape hlength]
  simp [bind, Except.bind, String.ofList_toList]

def furtherItem (s : String) : List Char := ',' :: '\n' :: ' ' :: ' ' :: (quote s).toList

theorem readItems_next {bound : Nat} {cs more : List Char} {text : String}
    (h : readItem cs = .ok (text, ',' :: '\n' :: ' ' :: ' ' :: '"' :: more)) :
    readItems (bound + 1) cs = (readItems bound ('"' :: more)).map fun p => (text :: p.1, p.2) := by
  have hcomma : skipSpace (',' :: '\n' :: ' ' :: ' ' :: '"' :: more) =
      ',' :: '\n' :: ' ' :: ' ' :: '"' :: more := rfl
  have hquote : skipSpace ('\n' :: ' ' :: ' ' :: '"' :: more) = '"' :: more := rfl
  simp only [readItems, h, bind, Except.bind, hcomma, hquote]
  cases hr : readItems bound ('"' :: more) <;> simp [hr, Except.map]

theorem readItems_quote {bound : Nat} (first : String) {rest : List String}
    (h : rest.length < bound) :
    readItems bound ((quote first).toList ++ (rest.flatMap furtherItem ++ ['\n', ']'])) =
      .ok (first :: rest, []) := by
  induction rest generalizing bound first with
  | nil =>
      cases bound with
      | zero => simp at h
      | succ bound =>
          rw [readItems, readItem_quote]
          rfl
  | cons second rest ih =>
      cases bound with
      | zero => simp at h
      | succ bound =>
          have hsecond := ih second (Nat.lt_of_succ_lt_succ h)
          have hfirst := readItem_quote first ((second :: rest).flatMap furtherItem ++ ['\n', ']'])
          simp only [toList_quote second, List.cons_append, List.append_assoc] at hsecond
          simp only [List.flatMap_cons, furtherItem, toList_quote second, List.cons_append,
            List.append_assoc] at hfirst ⊢
          rw [readItems_next hfirst, hsecond]
          rfl

theorem toList_intercalate_quote (first : String) (rest : List String) :
    (",".intercalate ((first :: rest).map fun s => JsonValue.lineStart 1 ++ quote s)).toList =
      '\n' :: ' ' :: ' ' :: ((quote first).toList ++ rest.flatMap furtherItem) := by
  have hstart : (JsonValue.lineStart 1).toList = ['\n', ' ', ' '] := by decide
  induction rest generalizing first with
  | nil => simp [hstart]
  | cons second rest ih =>
      have hsecond := ih second
      rw [List.map_cons] at hsecond
      rw [List.map_cons, List.map_cons, String.intercalate_cons_cons, String.toList_append, hsecond]
      simp [hstart, furtherItem]

theorem prettyItems_texts (depth : Nat) (texts : List String) :
    JsonValue.prettyItems depth (texts.map .text) = texts.map quote := by
  induction texts with
  | nil => rfl
  | cons first rest ih =>
      rw [List.map_cons, JsonValue.prettyItems, ih]
      rfl

theorem toList_pretty_cons (first : String) (rest : List String) :
    ((JsonValue.ofTexts (first :: rest)).pretty 0).toList =
      '[' :: '\n' :: ' ' :: ' ' ::
        ((quote first).toList ++ (rest.flatMap furtherItem ++ ['\n', ']'])) := by
  have hitems : ((first :: rest).map quote).map (JsonValue.lineStart 1 ++ ·) =
      (first :: rest).map fun s => JsonValue.lineStart 1 ++ quote s := List.map_map ..
  have hend : (JsonValue.lineStart 0).toList = ['\n'] := by decide
  rw [JsonValue.ofTexts, JsonValue.pretty, prettyItems_texts, JsonValue.block,
    if_neg (by simp), hitems]
  simp only [String.toList_append, toList_intercalate_quote, hend]
  simp

theorem length_le_length_flatMap_furtherItem (rest : List String) :
    rest.length ≤ (rest.flatMap furtherItem).length := by
  induction rest with
  | nil => simp
  | cons second rest ih =>
      rw [List.flatMap_cons, List.length_append, furtherItem, List.length_cons, List.length_cons]
      omega

theorem readTextList_items {more : List Char} {texts : List String}
    (h : readItems ('"' :: more).length ('"' :: more) = .ok (texts, [])) :
    readTextList ('[' :: '\n' :: ' ' :: ' ' :: '"' :: more) = .ok texts := by
  have hbracket : skipSpace ('[' :: '\n' :: ' ' :: ' ' :: '"' :: more) =
      '[' :: '\n' :: ' ' :: ' ' :: '"' :: more := rfl
  have hquote : skipSpace ('\n' :: ' ' :: ' ' :: '"' :: more) = '"' :: more := rfl
  have hend : skipSpace [] = [] := rfl
  rw [List.length_cons] at h
  simp [readTextList, hbracket, hquote, bind, Except.bind, h, hend]

/-- A list of texts is read from its indented form. -/
theorem textList_pretty (texts : List String) :
    textList ((JsonValue.ofTexts texts).pretty 0) = .ok texts := by
  cases texts with
  | nil => rfl
  | cons first rest =>
      have hlength := length_le_length_flatMap_furtherItem rest
      have hread (bound : Nat) (hb : rest.length < bound) := readItems_quote first hb
      rw [textList, toList_pretty_cons]
      rw [toList_quote, List.cons_append] at hread ⊢
      rw [readTextList_items (hread _ _)]
      · rfl
      · simp only [List.length_cons, List.length_append]
        omega

end TableFlow.Json
