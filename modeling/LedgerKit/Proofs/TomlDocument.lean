import LedgerKit.Proofs.Lists
import LedgerKit.Proofs.TomlNumber
import LedgerKit.Proofs.TomlString

/-!
# Documents, written and read

What is written for a value is read as that value up to the end of its line (`IsReadAs`), a text
says some statements if they are what it adds to those of the text behind it (`Says`), and texts one
after the other say their statements one after the other (`Says.append`).

* `parse?_of_says` : a text that says some pairs, and then tables under one header in double
  brackets, is the document with these entries and these tables.
-/

namespace LedgerKit.Toml

/-! ### Values at the end of a line -/

/-- The text is read as the value, up to the end of its line. -/
structure IsReadAs (w : List Char) (v : Value) : Prop where
  /-- It does not begin with a blank. -/
  starts : ∃ c cs, w = c :: cs ∧ isBlank c = false
  /-- It is read. -/
  reads : ∀ rest, readValue nestingLimit (w ++ '\n' :: rest) = some (v, '\n' :: rest)

theorem readValue_of_head {c : Char} (hlist : c ≠ '[') (htable : c ≠ '\x7b') (cs : List Char) :
    readValue nestingLimit (c :: cs) = readScalar (c :: cs) :=
  readValue.eq_4 _ _ (by simp [hlist]) (by simp [htable])

/-- A string is written with one of the two marks in front. -/
theorem exists_writeString (cs : List Char) :
    ∃ q t, writeString cs = q :: t ∧ (q = '"' ∨ q = '\'') := by
  simp only [writeString, betweenTriples]
  -- the notations differ in what follows the first mark
  repeat' split
  all_goals first | exact ⟨'"', _, rfl, .inl rfl⟩ | exact ⟨'\'', _, rfl, .inr rfl⟩

theorem isReadAs_string (s : String) : IsReadAs (writeString s.toList) (.string s) := by
  obtain ⟨q, t, hw, hq⟩ := exists_writeString s.toList
  refine ⟨⟨q, t, hw, by rcases hq with rfl | rfl <;> decide⟩, fun rest => ?_⟩
  have hread := readString_writeString s.toList rest
  rw [hw, List.cons_append] at hread ⊢
  rw [readValue_of_head (by rintro rfl; simp at hq) (by rintro rfl; simp at hq)]
  rcases hq with rfl | rfl <;> simp [readScalar, hread]

theorem isReadAs_integer {n : ℕ} (h : n < Int64.size / 2) :
    IsReadAs (Nat.toDigits 10 n) (.integer n) := by
  obtain ⟨c, cs, hcs, hc⟩ := Decimal.exists_toDigits n
  have hne (d : Char) (hd : d.isDigit = false) : c ≠ d := Decimal.ne_of_isDigit hc hd
  refine ⟨⟨c, cs, hcs, by simp [isBlank, hne ' ' rfl, hne '\t' rfl]⟩, fun rest => ?_⟩
  have hread := readScalar_toDigits h rest
  rw [hcs, List.cons_append] at hread ⊢
  rw [readValue_of_head (hne _ rfl) (hne _ rfl), hread]

theorem isReadAs_noElements : IsReadAs ['[', ']'] (.array []) :=
  ⟨⟨'[', [']'], rfl, rfl⟩, fun _ => rfl⟩

/-! ### Lines -/

/-- The key is written without marks. -/
def isBare (key : String) : Bool := !key.toList.isEmpty && key.toList.all isKeyChar

/-- A character of a key is none of those that begin something else. -/
theorem ne_of_isKeyChar {c d : Char} (h : isKeyChar c = true) (hd : isKeyChar d = false) :
    c ≠ d :=
  ne_of_apply_ne isKeyChar (by simp [h, hd])

theorem isBlank_of_isKeyChar {c : Char} (h : isKeyChar c = true) : isBlank c = false := by
  simp [isBlank, ne_of_isKeyChar h (d := ' ') rfl, ne_of_isKeyChar h (d := '\t') rfl]

theorem exists_cons_of_isBare {key : String} (h : isBare key = true) :
    ∃ c cs, key.toList = c :: cs ∧ isKeyChar c = true ∧ ∀ d ∈ cs, isKeyChar d = true := by
  rw [isBare, Bool.and_eq_true] at h
  cases hkey : key.toList with
  | nil => simp [hkey] at h
  | cons c cs =>
    rw [hkey, List.all_cons, Bool.and_eq_true, List.all_eq_true] at h
    exact ⟨c, cs, rfl, h.2⟩

theorem skipBlanks_of_not_isBlank {c : Char} (h : isBlank c = false) (cs : List Char) :
    skipBlanks (c :: cs) = c :: cs := by
  rw [skipBlanks, List.dropWhile_cons, h]
  rfl

theorem readKeyPart_bare {key : String} (h : isBare key = true) {d : Char}
    (hd : isKeyChar d = false) (tail : List Char) :
    readKeyPart (key.toList ++ d :: tail) = some (key, d :: tail) := by
  obtain ⟨c, cs, hcs, hc, hmem⟩ := exists_cons_of_isBare h
  have htake : (cs ++ d :: tail).takeWhile isKeyChar = cs := by
    rw [List.takeWhile_append_of_pos hmem, List.takeWhile_cons, hd]
    simp
  have hdrop : (cs ++ d :: tail).dropWhile isKeyChar = d :: tail := by
    rw [List.dropWhile_append_of_pos hmem, List.dropWhile_cons, hd]
    rfl
  have hkey : String.ofList (c :: cs) = key := by rw [← hcs, String.ofList_toList]
  rw [hcs, List.cons_append, readKeyPart, if_neg (ne_of_isKeyChar hc rfl),
    if_neg (ne_of_isKeyChar hc rfl), if_pos hc, htake, hdrop, hkey]

/-- A key ends where no dot follows it. -/
theorem readKey_bare {key : String} (h : isBare key = true) {d e : Char} (hd : isKeyChar d = false)
    {tail tail' : List Char} (hskip : skipBlanks (d :: tail) = e :: tail') (he : e ≠ '.') :
    readKey (key.toList ++ d :: tail) = some (([], key), e :: tail') := by
  obtain ⟨c, cs, hcs, hc, -⟩ := exists_cons_of_isBare h
  have hpart := readKeyPart_bare h hd tail
  rw [hcs, List.cons_append] at hpart ⊢
  -- the key has one part, since no dot follows
  have hparts : readKeyParts nestingLimit (c :: (cs ++ d :: tail)) = some ([key], e :: tail') := by
    rw [nestingLimit, readKeyParts, skipBlanks_of_not_isBlank (isBlank_of_isKeyChar hc), hpart]
    simp only [Option.bind_eq_bind, Option.bind_some, hskip]
    split
    · next heq => exact absurd (List.cons.inj heq).1 he
    · rfl
  rw [readKey, hparts]
  rfl

theorem append_ne_cons_of_isBare {key : String} (h : isBare key = true) {d : Char}
    (hd : isKeyChar d = false) (tail cs : List Char) : key.toList ++ tail ≠ d :: cs := by
  obtain ⟨c, ks, hks, hc, -⟩ := exists_cons_of_isBare h
  rw [hks]
  exact fun heq => ne_of_isKeyChar hc hd (List.cons.inj heq).1

theorem readStatement_pair {key : String} (hkey : isBare key = true) {w : List Char} {v : Value}
    (hw : IsReadAs w v) (rest : List Char) :
    readStatement (key.toList ++ " = ".toList ++ w ++ ['\n'] ++ rest)
      = some (.pair [] key v, rest) := by
  have hline : key.toList ++ " = ".toList ++ w ++ ['\n'] ++ rest
      = key.toList ++ ' ' :: '=' :: ' ' :: (w ++ '\n' :: rest) := by simp
  have hread : readKey (key.toList ++ ' ' :: '=' :: ' ' :: (w ++ '\n' :: rest))
      = some (([], key), '=' :: ' ' :: (w ++ '\n' :: rest)) := readKey_bare hkey rfl rfl (by decide)
  have hblank : skipBlanks (' ' :: (w ++ '\n' :: rest)) = w ++ '\n' :: rest := by
    obtain ⟨c, cs, hcs, hc⟩ := hw.starts
    rw [hcs]
    exact skipBlanks_of_not_isBlank hc _
  have hend : afterLine? ('\n' :: rest) = some rest := rfl
  rw [hline, readStatement.eq_3 _ (fun _ => append_ne_cons_of_isBare hkey rfl _ _)
    (fun _ => append_ne_cons_of_isBare hkey rfl _ _), hread]
  simp [after?, hblank, hw.reads, hend]

theorem readStatement_tables {key : String} (hkey : isBare key = true) (rest : List Char) :
    readStatement ("[[".toList ++ key.toList ++ "]]\n".toList ++ rest)
      = some (.tables [] key, rest) := by
  have hline : "[[".toList ++ key.toList ++ "]]\n".toList ++ rest
      = '[' :: '[' :: (key.toList ++ ']' :: ']' :: '\n' :: rest) := by simp
  have hread : readKey (key.toList ++ ']' :: ']' :: '\n' :: rest)
      = some (([], key), ']' :: ']' :: '\n' :: rest) := readKey_bare hkey rfl rfl (by decide)
  have hend : afterLine? ('\n' :: rest) = some rest := rfl
  rw [hline, readStatement, hread]
  simp [after?, hend]

/-! ### Texts -/

/-- The text says the statements. -/
def Reads (cs : List Char) (ss : List Statement) : Prop :=
  ∀ fuel, cs.length < fuel → readStatements fuel cs = some ss

/-- The text adds these statements to those of the text behind it. -/
def Says (w : List Char) (ss : List Statement) : Prop :=
  ∀ rest after, Reads rest after → Reads (w ++ rest) (ss ++ after)

theorem reads_nil : Reads [] [] := by
  intro fuel hfuel
  obtain ⟨fuel, rfl⟩ := Nat.exists_eq_succ_of_ne_zero (Nat.ne_zero_of_lt hfuel)
  rfl

theorem says_nil : Says [] [] := fun _ _ h => h

theorem Says.append {w w' : List Char} {ss ss' : List Statement} (h : Says w ss)
    (h' : Says w' ss') : Says (w ++ w') (ss ++ ss') := by
  intro rest after hrest
  rw [List.append_assoc, List.append_assoc]
  exact h _ _ (h' _ _ hrest)

theorem Says.flatMap {α : Type} {xs : List α} {f : α → List Char} {g : α → List Statement}
    (h : ∀ x ∈ xs, Says (f x) (g x)) : Says (xs.flatMap f) (xs.flatMap g) := by
  induction xs with
  | nil => exact says_nil
  | cons x xs ih =>
    exact (h x List.mem_cons_self).append (ih fun y hy => h y (List.mem_cons_of_mem x hy))

theorem says_emptyLine : Says ['\n'] [] := by
  intro rest after hrest fuel hfuel
  obtain ⟨fuel, rfl⟩ := Nat.exists_eq_succ_of_ne_zero (Nat.ne_zero_of_lt hfuel)
  exact hrest fuel (Nat.lt_of_succ_lt_succ hfuel)

/-- A line with a statement; it begins with neither a blank nor a comment. -/
theorem says_statement {c : Char} {cs : List Char} {s : Statement}
    (hc : isKeyChar c = true ∨ c = '[')
    (h : ∀ rest, readStatement (c :: (cs ++ rest)) = some (s, rest)) : Says (c :: cs) [s] := by
  intro rest after hrest fuel hfuel
  obtain ⟨fuel, rfl⟩ := Nat.exists_eq_succ_of_ne_zero (Nat.ne_zero_of_lt hfuel)
  have hlen : rest.length < fuel := by
    simp only [List.length_append, List.length_cons] at hfuel
    omega
  have hblank : isBlank c = false := by
    rcases hc with hc | rfl
    · exact isBlank_of_isKeyChar hc
    · rfl
  -- the line is neither empty nor a comment
  have hline : ¬(c = '#' ∨ c = '\n' ∨ c = '\r') := by
    rcases hc with hc | rfl
    · simp [ne_of_isKeyChar hc (d := '#') rfl, ne_of_isKeyChar hc (d := '\n') rfl,
        ne_of_isKeyChar hc (d := '\r') rfl]
    · decide
  rw [List.cons_append, readStatements, skipBlanks_of_not_isBlank hblank]
  simp [hline, h rest, hrest fuel hlen]

theorem says_pair {key : String} (hkey : isBare key = true) {w : List Char} {v : Value}
    (hw : IsReadAs w v) : Says (key.toList ++ " = ".toList ++ w ++ ['\n']) [.pair [] key v] := by
  obtain ⟨c, cs, hcs, hc, -⟩ := exists_cons_of_isBare hkey
  have hread := readStatement_pair hkey hw
  rw [hcs] at hread ⊢
  exact says_statement (.inl hc) hread

theorem says_tables {key : String} (hkey : isBare key = true) :
    Says ("[[".toList ++ key.toList ++ "]]\n".toList) [.tables [] key] :=
  says_statement (.inr rfl) (readStatement_tables hkey)

theorem Says.statements? {w : List Char} {ss : List Statement} (h : Says w ss)
    (hmark : w.head? ≠ some '\ufeff') : statements? w = some ss := by
  have hreads := h [] [] reads_nil
  rw [List.append_nil, List.append_nil] at hreads
  unfold Toml.statements?
  split
  · exact absurd rfl hmark
  · exact hreads _ (Nat.lt_succ_self _)

/-! ### What the statements amount to -/

/-- The statement that an entry is there. -/
def pairOf (e : String × Value) : Statement := .pair [] e.1 e.2

/-- The statements of one more table under a header in double brackets. -/
def tableOf (key : String) (row : Entries) : List Statement := .tables [] key :: row.map pairOf

theorem add_pairOf {d : Draft} {e : String × Value} (h : d.current.lookup e.1 = none) :
    d.add (pairOf e) = some { d with current := d.current ++ [e] } := by
  simp [Draft.add, pairOf, Entries.add, Entries.update, h]

/-- Pairs with different keys are put behind those that are there. -/
theorem foldlM_pairOf (row : Entries) (d : Draft)
    (h : ((d.current ++ row).map Prod.fst).Nodup) :
    (row.map pairOf).foldlM Draft.add d = some { d with current := d.current ++ row } := by
  induction row generalizing d with
  | nil => simp
  | cons e row ih =>
    have hstep := add_pairOf (lookup_eq_none_of_nodup h)
    rw [List.map_cons, List.foldlM_cons, hstep]
    have hrest := ih { d with current := d.current ++ [e] } (by simpa using h)
    simpa using hrest

/-- The draft in which some tables under a header are complete and one more has been begun. -/
def Draft.inTables (top : Entries) (key : String) (ts : List Entries) (current : Entries) :
    Draft :=
  ⟨top ++ [(key, .tables ts)], .tables [] key, current⟩

section Tables

variable {top : Entries} {key : String} (hkey : top.lookup key = none)

include hkey

theorem lookup_append_self (v : Value) : (top ++ [(key, v)]).lookup key = some v := by
  simp [List.lookup_append, hkey]

theorem replace_append_self (v v' : Value) :
    Entries.replace key v' (top ++ [(key, v)]) = top ++ [(key, v')] := by
  induction top with
  | nil => simp [Entries.replace]
  | cons e es ih =>
    rw [List.lookup_cons] at hkey
    split at hkey
    · cases hkey
    · next hne =>
      have hne : e.1 ≠ key := fun he => by simp [he] at hne
      rw [List.cons_append, Entries.replace, if_neg hne, ih hkey]
      rfl

theorem close_inTables (ts : List Entries) (current : Entries) :
    (Draft.inTables top key ts current).close
      = some (top ++ [(key, .tables (ts ++ [current]))]) := by
  simp [Draft.inTables, Draft.close, Entries.update, lookup_append_self hkey,
    replace_append_self hkey]

/-- The first table under the header begins. -/
theorem add_first_table : Draft.add ⟨[], .top, top⟩ (.tables [] key)
    = some (.inTables top key [] []) := by
  simp [Draft.add, Draft.openTables, Draft.close, Draft.inTables, Entries.update, hkey]

/-- Another table begins; the one before it is put with the others. -/
theorem add_next_table (ts : List Entries) (current : Entries) :
    (Draft.inTables top key ts current).add (.tables [] key)
      = some (.inTables top key (ts ++ [current]) []) := by
  simp [Draft.add, Draft.openTables, close_inTables hkey]
  simp [Draft.inTables, Entries.update, lookup_append_self hkey]

variable {row : Entries} (hrow : (row.map Prod.fst).Nodup)

include hrow

theorem foldlM_first_table : (tableOf key row).foldlM Draft.add ⟨[], .top, top⟩
    = some (.inTables top key [] row) := by
  rw [tableOf, List.foldlM_cons, add_first_table hkey]
  exact foldlM_pairOf row (.inTables top key [] []) hrow

theorem foldlM_next_table (ts : List Entries) (current : Entries) :
    (tableOf key row).foldlM Draft.add (.inTables top key ts current)
      = some (.inTables top key (ts ++ [current]) row) := by
  rw [tableOf, List.foldlM_cons, add_next_table hkey]
  exact foldlM_pairOf row (.inTables top key (ts ++ [current]) []) hrow

end Tables

/-- The tables that follow one are put behind it. -/
theorem foldlM_tables {top : Entries} {key : String} (hkey : top.lookup key = none)
    {rows : List Entries} (hrows : ∀ row ∈ rows, (row.map Prod.fst).Nodup) (ts : List Entries)
    (current : Entries) :
    ((rows.flatMap (tableOf key)).foldlM Draft.add (.inTables top key ts current)).bind Draft.close
      = some (top ++ [(key, .tables (ts ++ current :: rows))]) := by
  induction rows generalizing ts current with
  | nil => exact close_inTables hkey ts current
  | cons row rows ih =>
    have hrow := foldlM_next_table hkey (hrows row List.mem_cons_self) ts current
    have hrest := ih (fun r hr => hrows r (List.mem_cons_of_mem row hr)) (ts ++ [current]) row
    rw [List.flatMap_cons, List.foldlM_append, hrow]
    simpa using hrest

/-- Pairs and then tables under one header, put together. -/
theorem foldlM_document {top : Entries} (htop : (top.map Prod.fst).Nodup) {key : String}
    {rows : List Entries} (hrows : ∀ row ∈ rows, (row.map Prod.fst).Nodup)
    (hkey : rows ≠ [] → top.lookup key = none) :
    ((top.map pairOf ++ rows.flatMap (tableOf key)).foldlM Draft.add .empty).bind Draft.close
      = some (top ++ if rows = [] then [] else [(key, .tables rows)]) := by
  have hpairs : (top.map pairOf).foldlM Draft.add .empty = some ⟨[], .top, top⟩ :=
    foldlM_pairOf top .empty htop
  rw [List.foldlM_append, hpairs]
  cases rows with
  | nil => simp [Draft.close]
  | cons row rows =>
    have hkey := hkey (List.cons_ne_nil row rows)
    have hrow := foldlM_first_table hkey (hrows row List.mem_cons_self)
    have hrest := foldlM_tables hkey (fun r hr => hrows r (List.mem_cons_of_mem row hr)) [] row
    rw [if_neg (List.cons_ne_nil row rows), List.flatMap_cons]
    simpa [List.foldlM_append, hrow] using hrest

/-- A text that says pairs and then tables under one header is the document that has them. -/
theorem parse?_of_says {top : Entries} (htop : (top.map Prod.fst).Nodup) {key : String}
    {rows : List Entries} (hrows : ∀ row ∈ rows, (row.map Prod.fst).Nodup)
    (hkey : rows ≠ [] → top.lookup key = none) {w : List Char}
    (h : Says w (top.map pairOf ++ rows.flatMap (tableOf key)))
    (hmark : w.head? ≠ some '\ufeff') :
    parse? (String.ofList w) = some (top ++ if rows = [] then [] else [(key, .tables rows)]) := by
  have hdocument := foldlM_document htop hrows hkey
  simp only [parse?, String.toList_ofList, h.statements? hmark, Option.bind_eq_bind,
    Option.bind_some]
  exact hdocument

end LedgerKit.Toml
