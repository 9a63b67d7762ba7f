import Mathlib.Data.List.Basic

/-!
The part of UCL that generated configurations are written in: a scanner from
characters to tokens, and a grammar of pairs and sections over the tokens. A
text is read through the documents that have its tokens; there is at most one.
-/

namespace Text.Ucl

/-! ### Tokens -/

inductive Token
  | word (s : List Char)
  /-- A quoted string as it is written, escapes included. -/
  | quoted (s : List Char)
  | punct (c : Char)
  /-- A string without its closing quote. -/
  | unclosed
deriving DecidableEq

def isSpace (c : Char) : Bool := c == ' ' || c == '\t' || c == '\n' || c == '\r'

def isPunct (c : Char) : Bool :=
  c == '{' || c == '}' || c == '[' || c == ']' || c == '=' || c == ';' || c == ','

/-- The characters of names, numbers and other unquoted words. -/
def isWord (c : Char) : Bool := !isSpace c && !isPunct c && c != '"' && c != '#'

/-- What the scanner is in the middle of. -/
inductive Mode
  | gap
  | comment
  | word (s : List Char)
  | quoted (s : List Char)
  | escape (s : List Char)
deriving DecidableEq

/-- A character between tokens. -/
def begins (c : Char) : List Token × Mode :=
  if isSpace c then ([], .gap)
  else if c = '#' then ([], .comment)
  else if c = '"' then ([], .quoted [])
  else if isPunct c then ([.punct c], .gap)
  else ([], .word [c])

def scan : Mode → Char → List Token × Mode
  | .gap, c => begins c
  | .comment, c => ([], if c = '\n' then .gap else .comment)
  | .word s, c =>
      if isWord c then ([], .word (s ++ [c])) else (.word s :: (begins c).1, (begins c).2)
  | .quoted s, c =>
      if c = '\\' then ([], .escape s)
      else if c = '"' then ([.quoted s], .gap)
      else ([], .quoted (s ++ [c]))
  | .escape s, c => ([], .quoted (s ++ ['\\', c]))

def lexFrom : Mode → List Char → List Token
  | .gap, [] => []
  | .comment, [] => []
  | .word s, [] => [.word s]
  | .quoted _, [] => [.unclosed]
  | .escape _, [] => [.unclosed]
  | m, c :: cs => (scan m c).1 ++ lexFrom (scan m c).2 cs

def lex (text : List Char) : List Token := lexFrom .gap text

theorem lexFrom_cons (m : Mode) (c : Char) (cs : List Char) :
    lexFrom m (c :: cs) = (scan m c).1 ++ lexFrom (scan m c).2 cs := by
  cases m <;> rfl

/-- The tokens of a text that goes on, and what the scanner is in the middle of. -/
def scanAll : Mode → List Char → List Token × Mode
  | m, [] => ([], m)
  | m, c :: cs =>
      ((scan m c).1 ++ (scanAll (scan m c).2 cs).1, (scanAll (scan m c).2 cs).2)

theorem lexFrom_append (m : Mode) (text rest : List Char) :
    lexFrom m (text ++ rest) = (scanAll m text).1 ++ lexFrom (scanAll m text).2 rest := by
  induction text generalizing m with
  | nil => rfl
  | cons c cs ih => rw [List.cons_append, lexFrom_cons, ih, scanAll, List.append_assoc]

/-- The end of a word. -/
theorem lexFrom_word_end {s : List Char} {c : Char} (h : isWord c = false) (cs : List Char) :
    lexFrom (.word s) (c :: cs) = .word s :: lexFrom .gap (c :: cs) := by
  simp [lexFrom_cons, scan, h]

theorem lexFrom_word {w : List Char} (h : w.all isWord = true) (s rest : List Char) :
    lexFrom (.word s) (w ++ rest) = lexFrom (.word (s ++ w)) rest := by
  induction w generalizing s with
  | nil => simp
  | cons c w ih =>
      rw [List.all_cons, Bool.and_eq_true] at h
      rw [List.cons_append, lexFrom_cons, scan, if_pos h.1, List.nil_append, ih h.2]
      simp

/-- A word is read as a whole. -/
theorem lexFrom_gap_word {w : List Char} (h : w.all isWord = true) (hne : w ≠ [])
    (rest : List Char) : lexFrom .gap (w ++ rest) = lexFrom (.word w) rest := by
  obtain ⟨c, w, rfl⟩ := List.exists_cons_of_ne_nil hne
  rw [List.all_cons, Bool.and_eq_true] at h
  have hc : begins c = ([], .word [c]) := by
    have hword := h.1
    simp only [isWord, Bool.and_eq_true, Bool.not_eq_true', bne_iff_ne] at hword
    obtain ⟨⟨⟨hspace, hpunct⟩, hquote⟩, hhash⟩ := hword
    simp [begins, hspace, hpunct, hquote, hhash]
  rw [List.cons_append, lexFrom_cons, scan, hc, List.nil_append, lexFrom_word h.2]
  rfl

/-- The rest of the inside of a quoted string, after a backslash or not. -/
def rawFrom : Bool → List Char → Bool
  | escaped, [] => !escaped
  | true, _ :: cs => rawFrom false cs
  | false, c :: cs => if c = '\\' then rawFrom true cs else c != '"' && rawFrom false cs

/-- The inside of a quoted string: every backslash is followed by something. -/
def rawOk (raw : List Char) : Bool := rawFrom false raw

theorem rawFrom_append {b : Bool} {raw raw' : List Char} (h : rawFrom b raw = true)
    (h' : rawOk raw' = true) : rawFrom b (raw ++ raw') = true := by
  induction raw generalizing b with
  | nil =>
      cases b with
      | true => cases h
      | false => exact h'
  | cons c cs ih =>
      cases b with
      | true => exact ih h
      | false =>
          rw [rawFrom] at h
          rw [List.cons_append, rawFrom]
          split
          · rename_i hc
            rw [if_pos hc] at h
            exact ih h
          · rename_i hc
            rw [if_neg hc, Bool.and_eq_true] at h
            rw [Bool.and_eq_true]
            exact ⟨h.1, ih h.2⟩

theorem rawOk_append {raw raw' : List Char} (h : rawOk raw = true) (h' : rawOk raw' = true) :
    rawOk (raw ++ raw') = true := rawFrom_append h h'

theorem rawOk_of_all {raw : List Char} (h : raw.all (fun c => c != '\\' && c != '"') = true) :
    rawOk raw = true := by
  induction raw with
  | nil => rfl
  | cons c cs ih =>
      simp only [List.all_cons, Bool.and_eq_true, bne_iff_ne] at h
      have htail : rawFrom false cs = true := ih (by simpa using h.2)
      simp [rawOk, rawFrom, h.1.1, h.1.2, htail]

/-- A quoted string is read as a whole. -/
theorem lexFrom_quoted {raw : List Char} (h : rawOk raw = true) (s rest : List Char) :
    lexFrom (.quoted s) (raw ++ '"' :: rest) = .quoted (s ++ raw) :: lexFrom .gap rest := by
  have both : ∀ raw s, (rawFrom false raw = true → lexFrom (.quoted s) (raw ++ '"' :: rest) =
        .quoted (s ++ raw) :: lexFrom .gap rest) ∧
      (rawFrom true raw = true → lexFrom (.escape s) (raw ++ '"' :: rest) =
        .quoted (s ++ '\\' :: raw) :: lexFrom .gap rest) := by
    intro raw
    induction raw with
    | nil => exact fun s => ⟨fun _ => by simp [lexFrom_cons, scan], fun h => by cases h⟩
    | cons c cs ih =>
        refine fun s => ⟨fun h => ?_, fun h => ?_⟩
        · rw [rawFrom] at h
          rw [List.cons_append, lexFrom_cons, scan]
          split
          · rename_i hc
            rw [if_pos hc] at h
            rw [List.nil_append, (ih s).2 h, hc]
          · rename_i hc
            rw [if_neg hc, Bool.and_eq_true, bne_iff_ne] at h
            rw [if_neg h.1, List.nil_append, (ih _).1 h.2, List.append_assoc]
            rfl
        · rw [List.cons_append, lexFrom_cons, scan, List.nil_append, (ih _).1 h,
            List.append_assoc]
          rfl
  exact (both raw s).1 h

/-- What a quoted string stands for: named and numbered escapes are decoded,
before any other character the backslash is dropped. -/
def unescape : List Char → List Char
  | '\\' :: 'n' :: cs => '\n' :: unescape cs
  | '\\' :: 'r' :: cs => '\r' :: unescape cs
  | '\\' :: 'b' :: cs => '\x08' :: unescape cs
  | '\\' :: 't' :: cs => '\t' :: unescape cs
  | '\\' :: 'f' :: cs => '\x0c' :: unescape cs
  | '\\' :: 'u' :: a :: b :: c :: d :: cs =>
      Char.ofNat (([a, b, c, d].map hexValue).foldl (fun n v => 16 * n + v) 0) :: unescape cs
  | '\\' :: c :: cs => c :: unescape cs
  | c :: cs => c :: unescape cs
  | [] => []
where
  hexValue (c : Char) : Nat :=
    if c.isDigit then c.toNat - 48 else if c.isLower then c.toNat - 87 else c.toNat - 55

/-! ### Documents -/

inductive Atom
  | word (s : List Char)
  | quoted (s : List Char)

inductive Value
  | atom (a : Atom)
  | array (items : List Atom)

/-- The items of a document or of a section. -/
inductive Items
  | nil
  | pair (key : List Char) (value : Value) (rest : Items)
  | block (key : List Char) (body rest : Items)

def Atom.token : Atom → Token
  | .word s => .word s
  | .quoted s => .quoted s

/-- The items of an array after the first one, and its end. -/
def moreTokens : List Atom → List Token
  | [] => [.punct ']']
  | a :: as => .punct ',' :: a.token :: moreTokens as

def arrayTokens : List Atom → List Token
  | [] => [.punct ']']
  | a :: as => a.token :: moreTokens as

def Value.tokens : Value → List Token
  | .atom a => [a.token]
  | .array items => .punct '[' :: arrayTokens items

def Items.tokens : Items → List Token
  | .nil => []
  | .pair key value rest =>
      .word key :: .punct '=' :: (value.tokens ++ .punct ';' :: rest.tokens)
  | .block key body rest =>
      .word key :: .punct '{' :: (body.tokens ++ .punct '}' :: rest.tokens)

/-! ### One document for a text -/

theorem Atom.token_injective {a b : Atom} (h : a.token = b.token) : a = b := by
  cases a <;> cases b <;> cases h <;> rfl

theorem Atom.token_ne_punct (a : Atom) (c : Char) : a.token ≠ .punct c := by
  cases a <;> nofun

theorem moreTokens_append {as bs : List Atom} {r r' : List Token}
    (h : moreTokens as ++ r = moreTokens bs ++ r') : as = bs ∧ r = r' := by
  induction as generalizing bs with
  | nil =>
      cases bs with
      | nil => exact ⟨rfl, (List.cons.inj h).2⟩
      | cons b bs => exact absurd (List.cons.inj h).1 (by decide)
  | cons a as ih =>
      cases bs with
      | nil => exact absurd (List.cons.inj h).1 (by decide)
      | cons b bs =>
          obtain ⟨hhead, htail⟩ := List.cons.inj (List.cons.inj h).2
          obtain ⟨rfl, rfl⟩ := ih htail
          rw [Atom.token_injective hhead]
          exact ⟨rfl, rfl⟩

theorem arrayTokens_append {as bs : List Atom} {r r' : List Token}
    (h : arrayTokens as ++ r = arrayTokens bs ++ r') : as = bs ∧ r = r' := by
  cases as with
  | nil =>
      cases bs with
      | nil => exact ⟨rfl, (List.cons.inj h).2⟩
      | cons b bs => exact absurd (List.cons.inj h).1.symm (b.token_ne_punct _)
  | cons a as =>
      cases bs with
      | nil => exact absurd (List.cons.inj h).1 (a.token_ne_punct _)
      | cons b bs =>
          obtain ⟨hhead, htail⟩ := List.cons.inj h
          obtain ⟨rfl, rfl⟩ := moreTokens_append htail
          rw [Atom.token_injective hhead]
          exact ⟨rfl, rfl⟩

theorem Value.tokens_append {v v' : Value} {r r' : List Token}
    (h : v.tokens ++ r = v'.tokens ++ r') : v = v' ∧ r = r' := by
  cases v with
  | atom a =>
      cases v' with
      | atom b =>
          obtain ⟨hhead, rfl⟩ := List.cons.inj h
          rw [Atom.token_injective hhead]
          exact ⟨rfl, rfl⟩
      | array bs => exact absurd (List.cons.inj h).1 (a.token_ne_punct _)
  | array as =>
      cases v' with
      | atom b => exact absurd (List.cons.inj h).1.symm (b.token_ne_punct _)
      | array bs =>
          obtain ⟨rfl, rfl⟩ := arrayTokens_append (List.cons.inj h).2
          exact ⟨rfl, rfl⟩

/-- What may follow the items of a section. -/
def Closing (r : List Token) : Prop := ∀ s, r.head? ≠ some (.word s)

/-- Items are read in one way only. The induction is on the items; keys tell
an item from the end of the section, and the sign after a key tells a pair
from a section. -/
theorem Items.tokens_append {i j : Items} {r r' : List Token} (hr : Closing r)
    (hr' : Closing r') (h : i.tokens ++ r = j.tokens ++ r') : i = j ∧ r = r' := by
  induction i generalizing j r r' with
  | nil =>
      have h : r = j.tokens ++ r' := h
      cases j with
      | nil => exact ⟨rfl, h⟩
      | pair key value rest => exact absurd (by rw [h]; rfl) (hr key)
      | block key body rest => exact absurd (by rw [h]; rfl) (hr key)
  | pair key value rest ih =>
      cases j with
      | nil =>
          have h : (Items.pair key value rest).tokens ++ r = r' := h
          exact absurd (by rw [← h]; rfl) (hr' key)
      | pair key' value' rest' =>
          simp only [tokens, List.cons_append, List.append_assoc, List.cons.injEq,
            Token.word.injEq, true_and] at h
          obtain ⟨rfl, h⟩ := h
          obtain ⟨rfl, htail⟩ := Value.tokens_append h
          obtain ⟨rfl, rfl⟩ := ih hr hr' (List.cons.inj htail).2
          exact ⟨rfl, rfl⟩
      | block key' body' rest' =>
          simp [tokens] at h
  | block key body rest ihbody ihrest =>
      cases j with
      | nil =>
          have h : (Items.block key body rest).tokens ++ r = r' := h
          exact absurd (by rw [← h]; rfl) (hr' key)
      | pair key' value' rest' =>
          simp [tokens] at h
      | block key' body' rest' =>
          simp only [tokens, List.cons_append, List.append_assoc, List.cons.injEq,
            Token.word.injEq, true_and] at h
          obtain ⟨rfl, h⟩ := h
          obtain ⟨rfl, htail⟩ := ihbody (by nofun) (by nofun) h
          obtain ⟨rfl, rfl⟩ := ihrest hr hr' (List.cons.inj htail).2
          exact ⟨rfl, rfl⟩

theorem Items.tokens_injective {i j : Items} (h : i.tokens = j.tokens) : i = j := by
  have hnil : Closing [] := by nofun
  have h : i.tokens ++ [] = j.tokens ++ [] := congrArg (· ++ []) h
  exact (Items.tokens_append hnil hnil h).1

/-! ### Reading a document -/

namespace Items

/-- A document of sections alone. -/
def ofBlocks : List (List Char × Items) → Items
  | [] => .nil
  | (key, body) :: rest => .block key body (ofBlocks rest)

theorem ofBlocks_injective {bs bs' : List (List Char × Items)} (h : ofBlocks bs = ofBlocks bs') :
    bs = bs' := by
  induction bs generalizing bs' with
  | nil =>
      cases bs' with
      | nil => rfl
      | cons b bs' => cases h
  | cons b bs ih =>
      cases bs' with
      | nil => cases h
      | cons b' bs' =>
          simp only [ofBlocks, block.injEq] at h
          obtain ⟨hkey, hbody, hrest⟩ := h
          rw [ih hrest, Prod.ext hkey hbody]

/-- The value of a key. -/
def value? (key : List Char) : Items → Option Value
  | .nil => none
  | .pair k v rest => if k = key then some v else rest.value? key
  | .block _ _ rest => rest.value? key

/-- The section of a name. -/
def block? (key : List Char) : Items → Option Items
  | .nil => none
  | .pair _ _ rest => rest.block? key
  | .block k body rest => if k = key then some body else rest.block? key

/-- Where no name comes twice, a section is the one of its name. -/
theorem block?_ofBlocks {bs : List (List Char × Items)} (h : (bs.map Prod.fst).Nodup)
    {key : List Char} {body : Items} :
    (ofBlocks bs).block? key = some body ↔ (key, body) ∈ bs := by
  induction bs with
  | nil => exact iff_of_false nofun List.not_mem_nil
  | cons b bs ih =>
      obtain ⟨k, x⟩ := b
      rw [List.map_cons, List.nodup_cons] at h
      rw [ofBlocks, block?, List.mem_cons, Prod.mk.injEq]
      by_cases hk : k = key
      · subst hk
        rw [if_pos rfl, Option.some.injEq]
        constructor
        · exact fun hx => .inl ⟨rfl, hx.symm⟩
        · rintro (⟨-, rfl⟩ | hmem)
          · rfl
          · exact absurd (List.mem_map_of_mem hmem) h.1
      · rw [if_neg hk, ih h.2]
        exact (or_iff_right fun hhead => hk hhead.1.symm).symm

end Items

/-- The section of a name in a text that can be read in one way. -/
def HasBlock (text : List Char) (name : List Char) (body : Items) : Prop :=
  ∃ doc : Items, (∀ doc' : Items, lex text = doc'.tokens ↔ doc' = doc) ∧
    doc.block? name = some body

theorem hasBlock_of_lex {text : List Char} {doc : Items} (h : lex text = doc.tokens)
    {name : List Char} {body : Items} : HasBlock text name body ↔ doc.block? name = some body := by
  have hread : ∀ doc' : Items, lex text = doc'.tokens ↔ doc' = doc := by
    intro doc'
    rw [h]
    constructor
    · exact fun htokens => (Items.tokens_injective htokens).symm
    · rintro rfl
      rfl
  constructor
  · rintro ⟨doc', hdoc', hblock⟩
    obtain rfl := (hdoc' doc).1 h
    exact hblock
  · exact fun hblock => ⟨doc, hread, hblock⟩

end Text.Ucl
