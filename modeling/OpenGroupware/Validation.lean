import OpenGroupware.AdminApi
import OpenGroupware.AbuseApi

/-!
The validators of the handlers next to the CHECK constraints of the tables.
Slugs and policies that a validator accepts satisfy their CHECK; domain names
do so only when their last label is alphabetic. Up to this and a hyphen at the
end of a slug, the validators accept exactly the words of the grammars.
-/

namespace OpenGroupware

open Text

/-! ### Characters -/

theorem slugChar_lt {c : Char} (h : slugChar c = true) : c.toNat < 128 := by
  have hlower : c.isLower = (decide (c.val ≥ 'a'.val) && decide (c.val ≤ 'z'.val)) := rfl
  simp only [slugChar, hlower, Char.isDigit, Bool.or_eq_true, Bool.and_eq_true,
    decide_eq_true_eq, beq_iff_eq] at h
  have hc : c.toNat = c.val.toNat := rfl
  rcases h with (⟨-, h⟩ | ⟨-, h⟩) | rfl
  · have h : c.val.toNat ≤ 122 := h
    omega
  · have h : c.val.toNat ≤ 57 := h
    omega
  · decide

theorem mem_lowerAlnumDash {c : Char} : c ∈ lowerAlnumDash ↔ slugChar c = true := by
  have htable : ∀ n < 128, slugChar (Char.ofNat n) = true →
      lowerAlnumDash.contains (Char.ofNat n) = true := by
    decide
  have hback : lowerAlnumDash.all slugChar = true := by decide
  constructor
  · exact fun h => List.all_eq_true.1 hback c h
  · intro h
    have hlist := htable c.toNat (slugChar_lt h)
    rw [Char.ofNat_toNat] at hlist
    exact List.contains_iff_mem.1 (hlist h)

theorem mem_lowerAlnum {c : Char} : c ∈ lowerAlnum ↔ slugChar c = true ∧ c ≠ '-' := by
  rw [← mem_lowerAlnumDash, lowerAlnumDash, List.mem_append, List.mem_singleton]
  constructor
  · intro h
    refine ⟨.inl h, ?_⟩
    rintro rfl
    exact absurd (List.contains_iff_mem.2 h) (by decide)
  · rintro ⟨h | h, hne⟩
    · exact h
    · exact absurd h hne

/-- Characters of one byte each. -/
theorem byteLen_of_slugChar {cs : List Char} (h : cs.all slugChar = true) :
    byteLen cs = cs.length := by
  induction cs with
  | nil => rfl
  | cons c cs ih =>
      rw [List.all_cons, Bool.and_eq_true] at h
      have hc : c.val.toNat < 128 := slugChar_lt h.1
      have hone : c.utf8Size = 1 := Char.utf8Size_eq_one_iff.2 (by
        change c.val.toNat ≤ 127
        omega)
      rw [byteLen, List.map_cons, List.sum_cons, hone, List.length_cons, ← ih h.2]
      exact Nat.add_comm 1 _

theorem textOk_of_all {s : String} {p : Char → Bool} (h : s.toList.all p = true)
    (hnul : p '\x00' = false) : textOk s = true := by
  have hmem : '\x00' ∉ s.toList := by
    intro hm
    rw [List.all_eq_true.1 h _ hm] at hnul
    cases hnul
  simp [textOk, hmem]

/-! ### Slugs and policies -/

theorem slugCheck_of_slugOk {slug : String} (h : slugOk slug.toList = true) :
    slugCheck slug = true := by
  simp only [slugOk, Bool.and_eq_true, decide_eq_true_eq, bne_iff_ne] at h
  obtain ⟨⟨⟨⟨hmin, hmax⟩, hall⟩, hhead⟩, -⟩ := h
  rw [byteLen_of_slugChar hall] at hmin hmax
  rw [slugCheck, RegularExpression.rmatch_iff_matches']
  cases hs : slug.toList with
  | nil => simp [hs] at hmin
  | cons c cs =>
      simp only [hs, List.all_cons, Bool.and_eq_true, List.head?_cons, ne_eq,
        Option.some.injEq, List.length_cons] at hall hhead hmin hmax
      have hc : [c] ∈ (oneOf lowerAlnum).matches' :=
        mem_oneOf.2 ⟨c, mem_lowerAlnum.2 ⟨hall.1, hhead⟩, rfl⟩
      have hcs : cs ∈ (between 1 62 (oneOf lowerAlnumDash)).matches' := by
        refine (mem_between_oneOf (by decide)).2 ⟨by omega, fun x hx => ?_⟩
        exact mem_lowerAlnumDash.2 (List.all_eq_true.1 hall.2 x hx)
      exact Language.append_mem_mul hc hcs

theorem slugOk_of_slugCheck {slug : String} (h : slugCheck slug = true)
    (hlast : slug.toList.getLast? ≠ some '-') : slugOk slug.toList = true := by
  rw [slugCheck, RegularExpression.rmatch_iff_matches'] at h
  obtain ⟨u, hu, cs, hcs, heq⟩ := h
  obtain ⟨c, hc, rfl⟩ := mem_oneOf.1 hu
  obtain ⟨⟨hmin, hmax⟩, hall⟩ := (mem_between_oneOf (by decide)).1 hcs
  have heq : c :: cs = slug.toList := heq
  obtain ⟨hchar, hhead⟩ := mem_lowerAlnum.1 hc
  have hslug : (c :: cs).all slugChar = true := by
    rw [List.all_cons, hchar, List.all_eq_true.2 fun x hx => mem_lowerAlnumDash.1 (hall x hx)]
    rfl
  rw [← heq] at hlast ⊢
  have hlen : byteLen (c :: cs) = cs.length + 1 := byteLen_of_slugChar hslug
  rw [slugOk, hlen, hslug]
  simp only [Bool.and_true, Bool.and_eq_true, decide_eq_true_eq, bne_iff_ne, List.head?_cons,
    ne_eq, Option.some.injEq]
  exact ⟨⟨⟨by omega, by omega⟩, hhead⟩, hlast⟩

theorem policyCheck_of_policyOk {p : SetAbusePolicy} (h : policyOk p = true) :
    policyCheck p.reject p.addHeader p.greylist = true := by
  obtain ⟨reject, addHeader, greylist⟩ := p
  simp only [policyOk, Bool.and_eq_true] at h
  obtain ⟨⟨⟨hr, ha⟩, hg⟩, ⟨hpos, hga⟩, har⟩ := h
  cases reject <;> cases addHeader <;> cases greylist <;> simp [F64.isFinite] at hr ha hg
  simp only [F64.lt, decide_eq_true_eq] at hpos hga har
  simp only [policyCheck, F64.pgLt, F64.lt, Bool.and_eq_true, decide_eq_true_eq]
  exact ⟨⟨⟨⟨(hpos.trans hga).trans har, hpos.trans hga⟩, hpos⟩, hga⟩, har⟩

/-! ### Domain names -/

/-- What stands after the last dot. -/
def lastLabel (fqdn : List Char) : List Char := ((fqdn.splitOn '.').getLast?).getD []

/-- A top-level domain in letters. -/
def tldOk (label : List Char) : Bool := decide (2 ≤ label.length) && label.all Char.isLower

theorem mem_lowerAlpha {c : Char} : c ∈ lowerAlpha ↔ c.isLower = true := by
  have htable : ∀ n < 128, (Char.ofNat n).isLower = true →
      lowerAlpha.contains (Char.ofNat n) = true := by
    decide
  have hback : lowerAlpha.all Char.isLower = true := by decide
  constructor
  · exact fun h => List.all_eq_true.1 hback c h
  · intro h
    have hlt : c.toNat < 128 := slugChar_lt (by simp [slugChar, h])
    have hlist := htable c.toNat hlt
    rw [Char.ofNat_toNat] at hlist
    exact List.contains_iff_mem.1 (hlist h)

theorem labelOk_of_all {label : List Char} (hne : label ≠ []) (hmax : label.length ≤ 63)
    (hall : label.all slugChar = true) (hhead : label.head? ≠ some '-')
    (hlast : label.getLast? ≠ some '-') : labelOk label = true := by
  rw [labelOk, byteLen_of_slugChar hall, hall]
  simp [hne, hmax, hhead, hlast]

/-- An accepted label is one of the grammar. -/
theorem mem_labelPattern {label : List Char} (h : labelOk label = true) :
    label ∈ labelPattern.matches' := by
  simp only [labelOk, Bool.and_eq_true, decide_eq_true_eq, bne_iff_ne, Bool.not_eq_true',
    List.isEmpty_eq_false_iff] at h
  obtain ⟨⟨⟨⟨hne, hmax⟩, hall⟩, hhead⟩, hlast⟩ := h
  rw [byteLen_of_slugChar hall] at hmax
  obtain ⟨c, cs, rfl⟩ := List.exists_cons_of_ne_nil hne
  have hmem : ∀ x ∈ c :: cs, slugChar x = true := List.all_eq_true.1 hall
  have hc : [c] ∈ (oneOf lowerAlnum).matches' :=
    mem_oneOf.2 ⟨c, mem_lowerAlnum.2 ⟨hmem c List.mem_cons_self, by simpa using hhead⟩, rfl⟩
  have hrest : cs ∈ (optional (upTo 61 (oneOf lowerAlnumDash) * oneOf lowerAlnum)).matches' := by
    rw [mem_optional]
    rcases List.eq_nil_or_concat' cs with rfl | ⟨mid, e, rfl⟩
    · exact .inl rfl
    · have hmid : mid ∈ (upTo 61 (oneOf lowerAlnumDash)).matches' := by
        refine mem_upTo_oneOf.2 ⟨?_, fun x hx => mem_lowerAlnumDash.2 (hmem x (by simp [hx]))⟩
        simp only [List.length_cons, List.length_append, List.length_nil] at hmax
        omega
      have he : e ≠ '-' := by
        rintro rfl
        exact hlast (by simp [List.getLast?_cons])
      have hend : [e] ∈ (oneOf lowerAlnum).matches' :=
        mem_oneOf.2 ⟨e, mem_lowerAlnum.2 ⟨hmem e (by simp), he⟩, rfl⟩
      exact .inr (Language.append_mem_mul hmid hend)
  exact Language.append_mem_mul hc hrest

/-- A label of the grammar is accepted. -/
theorem labelOk_of_mem {label : List Char} (h : label ∈ labelPattern.matches') :
    labelOk label = true := by
  rw [labelPattern, RegularExpression.matches'_mul, Language.mem_mul] at h
  obtain ⟨u, hu, rest, hrest, rfl⟩ := h
  obtain ⟨c, hc, rfl⟩ := mem_oneOf.1 hu
  obtain ⟨hchar, hdash⟩ := mem_lowerAlnum.1 hc
  have hhead : ([c] ++ rest).head? ≠ some '-' := fun heq => hdash (Option.some.inj heq)
  rw [mem_optional, RegularExpression.matches'_mul, Language.mem_mul] at hrest
  rcases hrest with rfl | ⟨mid, hmid, v, hv, rfl⟩
  · refine labelOk_of_all (List.cons_ne_nil c []) ?_ ?_ hhead hhead
    · rw [List.append_nil, List.length_singleton]
      omega
    · rw [List.append_nil, List.all_cons, hchar]
      rfl
  · obtain ⟨e, he, rfl⟩ := mem_oneOf.1 hv
    obtain ⟨hlen, hall⟩ := mem_upTo_oneOf.1 hmid
    obtain ⟨hend, hdash'⟩ := mem_lowerAlnum.1 he
    refine labelOk_of_all (List.cons_ne_nil c _) ?_ ?_ hhead fun heq => ?_
    · simp only [List.length_append, List.length_singleton]
      omega
    · have hmid : mid.all slugChar = true :=
        List.all_eq_true.2 fun x hx => mem_lowerAlnumDash.1 (hall x hx)
      simp only [List.all_append, List.all_cons, List.all_nil, hchar, hmid, hend, Bool.and_true]
    · have hgetLast : ([c] ++ (mid ++ [e])).getLast? = some e := by
        rw [← List.append_assoc, List.getLast?_concat]
      exact hdash' (Option.some.inj (hgetLast.symm.trans heq))

theorem dot_not_mem_label {label : List Char} (h : label ∈ labelPattern.matches') :
    '.' ∉ label := by
  have alnum : Over (· ∈ lowerAlnumDash) (oneOf lowerAlnum) := .oneOf_of_all (by decide)
  have alnumDash : Over (· ∈ lowerAlnumDash) (oneOf lowerAlnumDash) := .oneOf_of_all (by decide)
  have hover : Over (· ∈ lowerAlnumDash) labelPattern :=
    alnum.mul ((alnumDash.upTo 61).mul alnum).optional
  intro hdot
  exact absurd (List.contains_iff_mem.2 (hover label h '.' hdot)) (by decide)

theorem dot_not_mem_alpha {w : List Char} (h : ∀ c ∈ w, c ∈ lowerAlpha) : '.' ∉ w := by
  intro hdot
  exact absurd (List.contains_iff_mem.2 (h '.' hdot)) (by decide)

theorem intercalate_concat {a : Char} (ls : List (List Char)) (v : List Char) :
    [a].intercalate (ls ++ [v]) = (ls.map (· ++ [a])).flatten ++ v := by
  induction ls with
  | nil => simp
  | cons l ls ih =>
      rw [List.cons_append, List.intercalate_cons_of_ne_nil (by simp), ih]
      simp

/-- Words ended by a dot each are labels without one. -/
theorem exists_labels {us : List (List Char)}
    (h : ∀ u ∈ us, u ∈ (labelPattern * oneOf ['.']).matches') :
    ∃ ls : List (List Char), us = ls.map (· ++ ['.']) ∧ ∀ l ∈ ls, l ∈ labelPattern.matches' := by
  induction us with
  | nil => exact ⟨[], rfl, by simp⟩
  | cons u us ih =>
      obtain ⟨ls, rfl, hls⟩ := ih fun x hx => h x (List.mem_cons_of_mem _ hx)
      obtain ⟨l, hl, e, he, rfl⟩ := h u List.mem_cons_self
      obtain ⟨c, hc, rfl⟩ := mem_oneOf.1 he
      obtain rfl : c = '.' := List.mem_singleton.1 hc
      refine ⟨l :: ls, rfl, fun x hx => ?_⟩
      rcases List.mem_cons.1 hx with rfl | hx
      · exact hl
      · exact hls x hx

/-- `[a-z]{2,63}`. -/
def tldPattern : RegularExpression Char := between 2 63 (oneOf lowerAlpha)

/-- A name of the grammar is labels and a last label, parted by dots. -/
theorem splitOn_of_fqdnCheck {fqdn : String} (h : fqdnCheck fqdn = true) :
    ∃ ls v, fqdn.toList = ['.'].intercalate (ls ++ [v]) ∧ fqdn.toList.splitOn '.' = ls ++ [v] ∧
      ls ≠ [] ∧ (∀ l ∈ ls, l ∈ labelPattern.matches') ∧ v ∈ tldPattern.matches' := by
  rw [fqdnCheck, RegularExpression.rmatch_iff_matches'] at h
  obtain ⟨w, hw, v, hv, heq⟩ := h
  obtain ⟨us, hne, rfl, hus⟩ := mem_plus.1 hw
  obtain ⟨ls, rfl, hls⟩ := exists_labels hus
  have heq : (ls.map (· ++ ['.'])).flatten ++ v = fqdn.toList := heq
  have hname : fqdn.toList = ['.'].intercalate (ls ++ [v]) := by
    rw [← heq, intercalate_concat]
  have hdots : ∀ l ∈ ls ++ [v], '.' ∉ l := by
    intro l hl
    rcases List.mem_append.1 hl with hl | hl
    · exact dot_not_mem_label (hls l hl)
    · rw [List.mem_singleton.1 hl]
      exact dot_not_mem_alpha ((mem_between_oneOf (by decide)).1 hv).2
  refine ⟨ls, v, hname, ?_, fun hnil => hne (by rw [hnil, List.map_nil]), hls, hv⟩
  rw [hname, List.splitOn_intercalate '.' hdots (by simp)]

theorem lastLabel_of_splitOn {cs : List Char} {ls : List (List Char)} {v : List Char}
    (h : cs.splitOn '.' = ls ++ [v]) : lastLabel cs = v := by
  rw [lastLabel, h, List.getLast?_concat]
  rfl

theorem mem_tldPattern {label : List Char} :
    label ∈ tldPattern.matches' ↔ tldOk label = true ∧ label.length ≤ 63 := by
  rw [tldPattern, mem_between_oneOf (by decide), tldOk, Bool.and_eq_true, decide_eq_true_eq,
    List.all_eq_true]
  simp only [mem_lowerAlpha]
  exact ⟨fun h => ⟨⟨h.1.1, h.2⟩, h.1.2⟩, fun h => ⟨⟨h.1.1, h.2⟩, h.1.2⟩⟩

theorem tldOk_of_fqdnCheck {fqdn : String} (h : fqdnCheck fqdn = true) :
    tldOk (lastLabel fqdn.toList) = true := by
  obtain ⟨ls, v, -, hsplit, -, -, hv⟩ := splitOn_of_fqdnCheck h
  rw [lastLabel_of_splitOn hsplit]
  exact (mem_tldPattern.1 hv).1

/-- The two grammars differ in the last label only. -/
theorem fqdnCheck_iff {fqdn : String} (h : fqdnOk fqdn.toList = true) :
    fqdnCheck fqdn = true ↔ tldOk (lastLabel fqdn.toList) = true := by
  refine ⟨tldOk_of_fqdnCheck, fun htld => ?_⟩
  simp only [fqdnOk, Bool.and_eq_true, List.all_eq_true] at h
  obtain ⟨⟨-, hdot⟩, hlabels⟩ := h
  have hdot : '.' ∈ fqdn.toList := List.contains_iff_mem.1 hdot
  obtain ⟨ls, v, hsplit⟩ : ∃ ls v, fqdn.toList.splitOn '.' = ls ++ [v] :=
    (List.eq_nil_or_concat' _).resolve_left (List.splitOn_ne_nil _ _)
  have hname : fqdn.toList = (ls.map (· ++ ['.'])).flatten ++ v := by
    rw [← intercalate_concat, ← hsplit, List.intercalate_splitOn]
  have hv : v ∈ tldPattern.matches' := by
    rw [lastLabel_of_splitOn hsplit] at htld
    have hlabel := hlabels v (by simp [hsplit])
    simp only [labelOk, Bool.and_eq_true, decide_eq_true_eq] at hlabel
    obtain ⟨⟨⟨⟨-, hmax⟩, hall⟩, -⟩, -⟩ := hlabel
    rw [byteLen_of_slugChar hall] at hmax
    exact mem_tldPattern.2 ⟨htld, hmax⟩
  have hne : ls ≠ [] := by
    rintro rfl
    have hlabel := hlabels v (by simp [hsplit])
    rw [hname] at hdot
    exact dot_not_mem_label (mem_labelPattern hlabel) (by simpa using hdot)
  have hls : (ls.map (· ++ ['.'])).flatten ∈ (plus (labelPattern * oneOf ['.'])).matches' := by
    refine mem_plus.2 ⟨ls.map (· ++ ['.']), by simpa using hne, rfl, fun u hu => ?_⟩
    obtain ⟨l, hl, rfl⟩ := List.mem_map.1 hu
    exact Language.append_mem_mul (mem_labelPattern (hlabels l (by simp [hsplit, hl])))
      (mem_oneOf.2 ⟨'.', by simp, rfl⟩)
  rw [fqdnCheck, RegularExpression.rmatch_iff_matches', hname]
  exact Language.append_mem_mul hls hv

/-- A last label of the grammar is accepted. -/
theorem labelOk_of_tld {label : List Char} (h : label ∈ tldPattern.matches') :
    labelOk label = true := by
  obtain ⟨⟨hmin, hmax⟩, hall⟩ := (mem_between_oneOf (by decide)).1 h
  have hdash : '-' ∉ label := fun hmem =>
    absurd (List.contains_iff_mem.2 (hall '-' hmem)) (by decide)
  refine labelOk_of_all ?_ hmax ?_ (fun heq => hdash (List.mem_of_mem_head? heq))
    (fun heq => hdash (List.mem_of_getLast? heq))
  · rintro rfl
    exact absurd hmin (by decide)
  · refine List.all_eq_true.2 fun c hc => ?_
    rw [slugChar, mem_lowerAlpha.1 (hall c hc)]
    rfl

/-- A name of the grammar is accepted if it is not too long. -/
theorem fqdnOk_of_fqdnCheck {fqdn : String} (h : fqdnCheck fqdn = true)
    (hmax : byteLen fqdn.toList ≤ 253) : fqdnOk fqdn.toList = true := by
  obtain ⟨ls, v, hname, hsplit, hne, hls, hv⟩ := splitOn_of_fqdnCheck h
  have hdot : '.' ∈ fqdn.toList := by
    obtain ⟨l, rest, rfl⟩ := List.exists_cons_of_ne_nil hne
    rw [hname, intercalate_concat]
    simp
  have hlabels : (ls ++ [v]).all labelOk = true := by
    refine List.all_eq_true.2 fun l hl => ?_
    rcases List.mem_append.1 hl with hl | hl
    · exact labelOk_of_mem (hls l hl)
    · rw [List.mem_singleton.1 hl]
      exact labelOk_of_tld hv
  rw [fqdnOk, hsplit, hlabels, List.contains_iff_mem.2 hdot, decide_eq_true hmax]
  rfl

/-! ### Validators -/

/-- The validators and the grammars accept the same names and slugs, up to the
last label, the length of a name, and a hyphen at the end of a slug. -/
theorem validators_match_grammars (s : String) :
    ((validateFqdn s = .ok () ∧ tldPattern.rmatch (lastLabel s.toList) = true) ↔
        fqdnCheck s = true ∧ byteLen s.toList ≤ 253) ∧
      (validateSlug s = .ok () ↔ slugCheck s = true ∧ s.toList.getLast? ≠ some '-') := by
  rw [validateFqdn_eq_ok, validateSlug_eq_ok, RegularExpression.rmatch_iff_matches']
  constructor
  · constructor
    · rintro ⟨hok, htld⟩
      have hmax : byteLen s.toList ≤ 253 := by
        simp only [fqdnOk, Bool.and_eq_true, decide_eq_true_eq] at hok
        exact hok.1.1
      exact ⟨(fqdnCheck_iff hok).2 (mem_tldPattern.1 htld).1, hmax⟩
    · rintro ⟨hcheck, hmax⟩
      obtain ⟨ls, v, -, hsplit, -, -, hv⟩ := splitOn_of_fqdnCheck hcheck
      rw [lastLabel_of_splitOn hsplit]
      exact ⟨fqdnOk_of_fqdnCheck hcheck hmax, hv⟩
  · constructor
    · intro hok
      refine ⟨slugCheck_of_slugOk hok, ?_⟩
      simp only [slugOk, Bool.and_eq_true, bne_iff_ne] at hok
      exact hok.2
    · rintro ⟨hcheck, hlast⟩
      exact slugOk_of_slugCheck hcheck hlast

end OpenGroupware
