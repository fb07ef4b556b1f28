import LogTemplate.Proofs.Scan
import Mathlib.Data.List.Forall2
import Mathlib.Data.List.TakeWhile

/-!
# Legible lines

A line is legible if the scan finds each of its tokens again in its pattern text.

* `Line.between` is what is printed between two tokens, `Line.follow` what is printed behind a
  literal up to the next placeholder;
* `Scan.Reads` says that a printed literal is read as itself, `Scan.Legible` that all tokens of a
  line are;
* `Scan.ReadAs` compares a token with what is found in its place;
* `Scan.tokens_legible` scans the text of a legible line and prints the tokens again.
-/

namespace LogTemplate

namespace Line

variable {v : Vocabulary} {q : Option Quotation} {start : Nat} {t u : Token} {rest : Line}
  {g : Text}

/-- What is written behind a literal, up to the next placeholder. -/
def follow (v : Vocabulary) (t : Token) : Line → Text
  | [] => []
  | u :: rest => separator v (some t) u ++ if u.isLiteral then stretch v u rest else []

theorem stretch_eq (v : Vocabulary) (t : Token) (rest : Line) :
    stretch v t rest = t.value ++ follow v t rest := by
  cases rest <;> simp [stretch, follow]

theorem separator_off (hv : v.markSpaces = false) (t u : Token) :
    separator v (some t) u = [' '] := by
  simp [separator, hv]

/-- What is written before a token is written before it behind another one, too. -/
theorem printFrom_some (t u : Token) (rest : Line) :
    printFrom v (some t) start (u :: rest) =
      ⟨separator v (some t) u ++
          (printFrom v none (start + (separator v (some t) u).bytes) (u :: rest)).text,
        (printFrom v none (start + (separator v (some t) u).bytes) (u :: rest)).offsets⟩ := by
  simp [printFrom, separator]

theorem offsets_eq_nil_iff {previous? : Option Token} {line : Line} :
    (printFrom v previous? start line).offsets = [] ↔ ∀ t ∈ line, t.isLiteral := by
  induction line generalizing previous? start with
  | nil => simp [printFrom]
  | cons t line ih =>
    by_cases ht : t.isPlaceholder
    · rw [printFrom_placeholder ht]
      simp [Token.isLiteral, ht]
    · have literal : t.isLiteral := by simpa [Token.isLiteral] using ht
      rw [printFrom_literal literal, printBehind, ih]
      simp [literal]

/-- The white space `g` between a token and the rest, inside of the quotation `q`. -/
structure Gap (v : Vocabulary) (q : Option Quotation) (g : Text) (rest : Line) : Prop where
  blank : ∀ c ∈ g, Text.isSpace c
  /-- A new line outside of quotations would cut the text. -/
  inner : '\n' ∈ g → q ≠ none
  /-- What stands next to a token has no space before it. -/
  near : v.markSpaces → g = [] → ∀ u ∈ rest.head?, u.spaceBefore = false

/-- What is printed between a token and the rest. -/
def between (v : Vocabulary) (g : Text) (rest : Line) : Text :=
  if v.markSpaces then g else if rest.isEmpty then [] else [' ']

theorem Gap.between_blank (gap : Gap v q g rest) {d : Char} (hd : d ∈ between v g rest) :
    Text.isSpace d ∧ (d = '\n' → q ≠ none) := by
  unfold between at hd
  split at hd
  · exact ⟨gap.blank d hd, fun line => gap.inner (line ▸ hd)⟩
  · split at hd
    · cases hd
    · obtain rfl := List.mem_singleton.1 hd
      exact ⟨by decide, fun line => absurd line (by decide)⟩

/-- Nothing is printed between white space that is kept and the token behind it. -/
theorem printFrom_behind_space (on : v.markSpaces) (blank : ∀ c ∈ g, Text.isSpace c) (ne : g ≠ [])
    (start : Nat) (rest : Line) :
    printFrom v (some (.literal g)) start rest = printFrom v none start rest := by
  have space : (Token.literal g).isSpace := by
    simp only [Token.isSpace, Token.isLiteral_literal, Text.isBlank, Bool.and_eq_true,
      List.all_eq_true, Bool.not_eq_true', List.isEmpty_eq_false_iff]
    exact ⟨⟨trivial, ne⟩, blank⟩
  cases rest with
  | nil => rfl
  | cons u rest => simp [printFrom, separator, on, space]

/-- A token and the rest are printed with what stands between them. -/
theorem printFrom_spaces (gap : Gap v q g rest) (t : Token) (start : Nat) :
    printFrom v (some t) start (Scan.spaces v g ++ rest) =
      ⟨between v g rest ++ (printFrom v none (start + (between v g rest).bytes) rest).text,
        (printFrom v none (start + (between v g rest).bytes) rest).offsets⟩ := by
  cases on : v.markSpaces with
  | false =>
    have spaces : Scan.spaces v g = [] := by simp [Scan.spaces, on]
    cases rest with
    | nil => simp [spaces, between, on, printFrom]
    | cons u rest =>
      rw [spaces, List.nil_append, printFrom_some, separator_off on]
      simp [between, on]
  | true =>
    cases g with
    | nil =>
      cases rest with
      | nil => simp [Scan.spaces, between, printFrom]
      | cons u rest =>
        have near := gap.near on rfl u rfl
        have joined : separator v (some t) u = [] := by simp [separator, on, near]
        simp only [Scan.spaces, List.isEmpty_nil, Bool.not_true, Bool.and_false,
          Bool.false_eq_true, if_false, List.nil_append]
        rw [printFrom_some, joined]
        simp [between, on]
    | cons c g =>
      have spaces : Scan.spaces v (c :: g) = [.literal (c :: g)] := by simp [Scan.spaces, on]
      have joined : separator v (some t) (.literal (c :: g)) = [] := by
        simp [separator, on, Token.literal]
      rw [spaces, List.singleton_append, printFrom_literal (Token.isLiteral_literal _), printBehind,
        joined, printToken_literal (Token.isLiteral_literal _),
        printFrom_behind_space on gap.blank (by simp)]
      simp [between, on, Token.literal]

/-- Where white space is not kept, two literals are printed as one with a blank in it. -/
theorem printFrom_glued (hv : v.markSpaces = false) (ht : t.isLiteral) (hu : u.isLiteral)
    (start : Nat) (rest : Line) :
    printFrom v none start ({ t with value := t.value ++ ' ' :: u.value } :: rest) =
      printFrom v none start (t :: u :: rest) := by
  have alike : ∀ (a b : Token) place, printFrom v (some a) place rest =
      printFrom v (some b) place rest := by
    intro a b place
    cases rest with
    | nil => rfl
    | cons r rest => simp [printFrom, separator_off hv]
  rw [printFrom_literal (t := { t with value := t.value ++ ' ' :: u.value }) ht,
    printFrom_literal ht, printBehind, printBehind, printFrom_literal hu, printBehind,
    printToken_literal (t := { t with value := t.value ++ ' ' :: u.value }) ht,
    printToken_literal ht, printToken_literal hu, separator_off hv, alike _ u]
  have width : start + (t.value.bytes + (Char.utf8Size ' ' + u.value.bytes)) =
      start + t.value.bytes + Char.utf8Size ' ' + u.value.bytes := by omega
  simp [separator, width]

/-- Tokens that are printed alike, before lines that are printed alike. -/
theorem printFrom_congr {line again : Line} {e : Text} (gap : Gap v q g line)
    (gap' : Gap v q e again) (shown : printToken v u = printToken v t)
    (placeholder : u.isPlaceholder = t.isPlaceholder)
    (joined : between v e again = between v g line)
    (behind : ∀ place, place = start + (printToken v t).bytes + (between v g line).bytes →
      printFrom v none place again = printFrom v none place line) :
    printFrom v none start (u :: (Scan.spaces v e ++ again)) =
      printFrom v none start (t :: (Scan.spaces v g ++ line)) := by
  rw [printFrom, printFrom]
  simp only [separator, Text.bytes_nil, Nat.add_zero, List.nil_append, shown, placeholder,
    printFrom_spaces gap, printFrom_spaces gap', joined, behind _ rfl]

end Line

namespace Scan

open Line

variable {v : Vocabulary} {strict loose after : Bool} {q q' : Option Quotation} {t u : Token}
  {line rest : Line} {g e w : Text} {c : Char} {mode : Mode} {cursor : Cursor} {start : Nat}

/-- In the text of a line, the scan finds the literal `t` before the rest of the line. Inside of a
quotation it may take the blank behind it, too. If all runs are looked at, none begins there. -/
structure Reads (v : Vocabulary) (strict : Bool) (q : Option Quotation) (after : Bool) (t : Token)
    (rest : Line) (q' : Option Quotation) : Prop where
  literal : t.isLiteral
  tight : v.markSpaces = false → t.value.trimEnd = t.value
  run : strict → ∀ body w, Placeholder.run? (stretch v t rest) = some (body, w) →
    Placeholder.parse? v body = none
  found : ∃ c x b y, t.value = c :: x ∧ Text.isSpace c = false ∧ follow v t rest = b ++ y ∧
    (b = [] ∨ (v.markSpaces = false ∧ b = [' '])) ∧
    ∀ last, (last = .ipv4 ↔ after) →
      next v q last (rest.all Token.isLiteral) c (x ++ follow v t rest) =
        ⟨{ value := [], kind := .literal }, (x ++ b).length, q'⟩

/-- All tokens of a line are found again in its text, one by one unless the line is `loose`. -/
inductive Legible (v : Vocabulary) (strict loose : Bool) : Option Quotation → Bool → Line → Prop
  | nil {q : Option Quotation} {after : Bool} : Legible v strict loose q after []
  | value {q : Option Quotation} {after : Bool} {t u : Token} {g : Text} {rest : Line} :
      Placeholder.Restores v t u → Gap v q g rest →
      Legible v strict loose q (u.kind = .ipv4) rest →
      Legible v strict loose q after (t :: (spaces v g ++ rest))
  | literal {q q' : Option Quotation} {after : Bool} {t : Token} {g : Text} {rest : Line} :
      Reads v strict q after t (spaces v g ++ rest) q' → Gap v q' g rest →
      Legible v strict loose q' false rest →
      Legible v strict loose q after (t :: (spaces v g ++ rest))
  /-- A quotation may keep two literals together that stood apart. -/
  | glued {q : Option Quotation} {after : Bool} {t u : Token} {rest : Line} :
      loose → v.markSpaces = false → t.isLiteral → u.isLiteral →
      Legible v strict loose q after ({ t with value := t.value ++ ' ' :: u.value } :: rest) →
      Legible v strict loose q after (t :: u :: rest)

/-- The token `x` is found where `t` was printed: the same literal, or the placeholder that is read
there. -/
inductive ReadAs (v : Vocabulary) : Token → Token → Prop
  | literal {t x : Token} : t.isLiteral → x.isLiteral → x.value = t.value → ReadAs v t x
  | value {t u : Token} (space : Bool) : Placeholder.Restores v t u →
      ReadAs v t { u with spaceBefore := space }

theorem ReadAs.isPlaceholder {x : Token} (h : ReadAs v t x) :
    x.isPlaceholder = t.isPlaceholder := by
  cases h with
  | literal ht hx => simp_all [Token.isLiteral]
  | value space restores => exact restores.restored.trans restores.placeholder.symm

theorem ReadAs.printToken {x : Token} (h : ReadAs v t x) : printToken v x = printToken v t := by
  cases h with
  | literal ht hx value => rw [printToken_literal ht, printToken_literal hx, value]
  | @value u space restores =>
    rw [printToken_placeholder restores.placeholder, ← restores.print]
    exact printToken_placeholder (t := { u with spaceBefore := space }) restores.restored

/-- White space that is kept is found again. -/
theorem forall₂_readAs_spaces (v : Vocabulary) (g : Text) :
    List.Forall₂ (ReadAs v) (spaces v g) (spaces v g) :=
  List.forall₂_same.2 fun x hx => by
    rw [eq_literal_of_mem_spaces hx]
    exact .literal rfl rfl rfl

/-- From a byte position on, the scan looks for placeholders where the line has some, and at no
other place unless the line is strictly legible. -/
structure Announces (mode : Mode) (v : Vocabulary) (strict : Bool) (start : Nat) (line : Line) :
    Prop where
  anchors : mode.anchors.filter (start ≤ ·) = (printFrom v none start line).offsets
  allows : ∀ place ∈ mode.anchors, mode.allows place
  others : ∀ place, mode.allows place → place ∉ mode.anchors → strict ∧ mode.anchors = []

/-- The same holds behind a token. -/
theorem Announces.tail (h : Announces mode v strict start line) {place : Nat} (le : start ≤ place)
    (offsets : (printFrom v none start line).offsets.filter (place ≤ ·) =
      (printFrom v none place rest).offsets) : Announces mode v strict place rest where
  anchors := by
    rw [← offsets, ← h.anchors, List.filter_filter]
    congr 1
    funext n
    have : place ≤ n → start ≤ n := fun h => Nat.le_trans le h
    by_cases hn : place ≤ n <;> simp [hn, this]
  allows := h.allows
  others := h.others

theorem printFrom_cons (gap : Gap v q g rest) (t : Token) (start : Nat) :
    printFrom v none start (t :: (spaces v g ++ rest)) =
      let place := start + (printToken v t).bytes + (between v g rest).bytes
      ⟨printToken v t ++ (between v g rest ++ (printFrom v none place rest).text),
        if t.isPlaceholder then start :: (printFrom v none place rest).offsets
        else (printFrom v none place rest).offsets⟩ := by
  rw [printFrom]
  simp [separator, printFrom_spaces gap]

theorem Announces.behind (gap : Gap v q g rest) {place : Nat}
    (h : Announces mode v strict start (t :: (spaces v g ++ rest)))
    (eq : place = start + (printToken v t).bytes + (between v g rest).bytes) :
    Announces mode v strict place rest := by
  refine h.tail (by omega) ?_
  have later : (printFrom v none place rest).offsets.filter (place ≤ ·) =
      (printFrom v none place rest).offsets :=
    List.filter_eq_self.2 fun _ ho => decide_eq_true (start_le_of_mem_offsets ho)
  rw [printFrom_cons gap, ← eq]
  by_cases ht : t.isPlaceholder
  · have pos := Text.bytes_pos (print_ne_nil v t)
    have : ¬ place ≤ start := by rw [eq, printToken_placeholder ht]; omega
    simp [ht, this, later]
  · simp [ht, later]

/-! ### Scanning the text of a line -/

/-- A token of the scan, between what was and what is to be scanned. -/
theorem tokens_step {x rest : Text} {found : Found} (blank : ∀ c ∈ e, Text.isSpace c)
    (hc : Text.isSpace c = false) (uncut : cursor.isCut e = false)
    (hf : Scan.found v mode cursor (cursor.place + e.bytes) c (x ++ rest) = found)
    (more : found.more = x.length) :
    tokens v mode cursor (e ++ c :: (x ++ rest)) =
      spaces v e ++ { found.token with spaceBefore := !e.isEmpty } ::
        tokens v mode { place := cursor.place + e.bytes + Text.bytes (c :: x)
                        quotation := found.quotation, last := found.token.kind, started := true }
          rest := by
  rw [tokens_of_cons blank hc uncut hf]
  simp [Cursor.behind, more]

/-- The placeholders of a line stand behind its first literal. -/
theorem lt_of_mem_offsets (ht : t.isLiteral) (ne : t.value ≠ []) {o : Nat}
    (ho : o ∈ (printFrom v none start (t :: rest)).offsets) : start < o := by
  obtain ⟨behind, -, offsets⟩ := printFrom_stretch (v := v) none start ht rest
  have pos : 0 < (stretch v t rest).bytes := by
    rw [stretch_eq]
    exact Text.bytes_pos (by simp [ne])
  simp only [separator, Text.bytes_nil, Nat.add_zero] at offsets
  rcases offsets with ⟨none, -⟩ | ⟨others, some⟩
  · rw [none] at ho
    cases ho
  · have ascending := pairwise_offsets v none start (t :: rest)
    rw [some] at ascending ho
    rcases List.mem_cons.1 ho with rfl | ho
    · omega
    · have := (List.pairwise_cons.1 ascending).1 o ho
      omega

/-- No placeholder is looked for at a literal, and the next one is where the line has it. -/
theorem Announces.next (h : Announces mode v strict start (t :: rest)) (ht : t.isLiteral)
    (ne : t.value ≠ []) : start ∉ mode.anchors ∧
      mode.anchors.find? (start < ·) = (printFrom v none start (t :: rest)).offsets.head? := by
  have away : start ∉ mode.anchors := by
    intro mem
    have : start ∈ mode.anchors.filter (start ≤ ·) := List.mem_filter.2 ⟨mem, by simp⟩
    rw [h.anchors] at this
    exact absurd (lt_of_mem_offsets ht ne this) (Nat.lt_irrefl _)
  refine ⟨away, ?_⟩
  rw [← h.anchors, ← List.head?_filter]
  refine congrArg List.head? (List.filter_congr fun n hn => ?_)
  have : n ≠ start := fun e => away (e ▸ hn)
  simp only [decide_eq_decide]
  omega

/-- The window of a literal is what is printed behind it, up to the next placeholder. -/
theorem window_eq (h : Announces mode v strict start (t :: rest)) (ht : t.isLiteral) {x : Text}
    (value : t.value = c :: x) :
    ∃ behind, (printFrom v none start (t :: rest)).text = stretch v t rest ++ behind ∧
      window mode start c (x ++ follow v t rest ++ behind) =
        (x ++ follow v t rest, rest.all Token.isLiteral) ∧
      (mode.anchors = [] → behind = []) := by
  obtain ⟨behind, text, offsets⟩ := printFrom_stretch (v := v) none start ht rest
  simp only [separator, List.nil_append, Text.bytes_nil, Nat.add_zero] at text offsets
  obtain ⟨-, next⟩ := h.next ht (by simp [value])
  refine ⟨behind, text, ?_, fun none => ?_⟩
  · rw [window, next]
    rcases offsets with ⟨none, rfl⟩ | ⟨others, some⟩
    · have all : rest.all Token.isLiteral := by
        rw [offsets_eq_nil_iff] at none
        exact List.all_eq_true.2 fun u hu => none u (List.mem_cons_of_mem _ hu)
      simp [none, all]
    · have notAll : rest.all Token.isLiteral = false := by
        cases all : rest.all Token.isLiteral with
        | false => rfl
        | true =>
          have : (printFrom v none start (t :: rest)).offsets = [] :=
            offsets_eq_nil_iff.2 (List.forall_mem_cons.2 ⟨ht, List.all_eq_true.1 all⟩)
          rw [some] at this
          cases this
      have width : start + (stretch v t rest).bytes - start - c.utf8Size =
          (x ++ follow v t rest).bytes := by
        rw [stretch_eq, value]
        simp only [List.cons_append, Text.bytes_cons]
        omega
      simp only [some, List.head?_cons, width, Text.takeBytes_bytes_append, notAll]
  · rcases offsets with ⟨-, eq⟩ | ⟨others, some⟩
    · exact eq
    · have := h.anchors
      rw [none, some] at this
      cases this

/-- The text of a line behind the white space `e` is scanned as tokens that are printed as the line
is, and that are those of the line one by one unless it is loose. -/
def Repeats (v : Vocabulary) (mode : Mode) (loose : Bool) (cursor : Cursor) (e : Text)
    (line : Line) : Prop :=
  ∃ again, tokens v mode cursor (e ++ (printFrom v none (cursor.place + e.bytes) line).text) =
      spaces v e ++ again ∧
    printFrom v none (cursor.place + e.bytes) again =
      printFrom v none (cursor.place + e.bytes) line ∧
    again.isEmpty = line.isEmpty ∧ (e = [] → ∀ u ∈ again.head?, u.spaceBefore = false) ∧
    (loose = false → List.Forall₂ (ReadAs v) line again)

theorem repeats_nil (blank : ∀ c ∈ e, Text.isSpace c) (uncut : cursor.isCut e = false) :
    Repeats v mode loose cursor e [] := by
  refine ⟨[], ?_, rfl, rfl, by simp, fun _ => .nil⟩
  have taken : e.takeWhile Text.isSpace = e := List.takeWhile_eq_self_iff.2 blank
  have dropped : e.dropWhile Text.isSpace = [] := List.dropWhile_eq_nil_iff.2 blank
  simp [printFrom, tokens_blank dropped, taken, uncut]

/-- A token is found again, and perhaps the blank behind it, before a line that is. -/
theorem repeats_cons {f : Found} {x b z : Text} {place : Nat} (gap : Gap v q' g rest)
    (eq : place = cursor.place + e.bytes + (printToken v t).bytes + (between v g rest).bytes)
    (blank : ∀ c ∈ e, Text.isSpace c) (uncut : cursor.isCut e = false)
    (text : c :: x = printToken v t ++ b) (joined : between v g rest = b ++ z)
    (hb : b = [] ∨ v.markSpaces = false) (hc : Text.isSpace c = false)
    (hf : Scan.found v mode cursor (cursor.place + e.bytes) c
      (x ++ (z ++ (printFrom v none place rest).text)) = f)
    (more : f.more = x.length)
    (same : ∀ space, ReadAs v t { f.token with spaceBefore := space }) (hq : f.quotation = q')
    (ih : ∀ cursor : Cursor, cursor.quotation = q' → cursor.last = f.token.kind →
      cursor.place + z.bytes = place → cursor.isCut z = false →
      Repeats v mode loose cursor z rest) :
    Repeats v mode loose cursor e (t :: (spaces v g ++ rest)) := by
  have within : ∀ d ∈ z, Text.isSpace d ∧ (d = '\n' → q' ≠ none) := fun d hd =>
    gap.between_blank (by rw [joined]; exact List.mem_append_right _ hd)
  let behind : Cursor :=
    { place := cursor.place + e.bytes + Text.bytes (c :: x), quotation := f.quotation
      last := f.token.kind, started := true }
  have width : behind.place + z.bytes = place := by
    simp only [behind, text, eq, joined, Text.bytes_append]
    omega
  have uncut' : behind.isCut z = false := by
    by_cases line : '\n' ∈ z
    · have quoted : q'.isNone = false := by
        simpa [Option.isSome_iff_ne_none] using (within _ line).2 rfl
      simp [Cursor.isCut, behind, hq, quoted]
    · simp [Cursor.isCut, line]
  obtain ⟨again, scan, print, empty, near, tokens⟩ := ih behind hq rfl width uncut'
  rw [width] at scan print
  have kept : spaces v z = spaces v g := by
    cases on : v.markSpaces with
    | true =>
      have : b = [] := hb.resolve_right (by simp [on])
      rw [between, if_pos on, this, List.nil_append] at joined
      rw [joined]
    | false => simp [spaces, on]
  have joined' : between v z again = between v g rest := by
    unfold between at joined ⊢
    cases on : v.markSpaces with
    | true =>
      have : b = [] := hb.resolve_right (by simp [on])
      simpa [on, this] using joined.symm
    | false => simp [empty]
  refine ⟨{ f.token with spaceBefore := !e.isEmpty } :: (spaces v z ++ again), ?_, ?_, rfl, ?_,
    fun tight => ?_⟩
  · have whole : (printFrom v none (cursor.place + e.bytes) (t :: (spaces v g ++ rest))).text =
        c :: (x ++ (z ++ (printFrom v none place rest).text)) := by
      rw [printFrom_cons gap, ← eq, ← List.cons_append, text, joined]
      simp
    rw [whole, tokens_step blank hc uncut hf more, scan]
  · refine printFrom_congr gap ⟨fun c hc => (within c hc).1, fun h => (within _ h).2 rfl,
      fun _ => near⟩ (same _).printToken (same false).isPlaceholder joined' fun p hp => ?_
    rw [hp, ← eq]
    exact print
  · rintro rfl u hu
    cases hu
    rfl
  · rw [kept]
    exact .cons (same _) (List.rel_append (forall₂_readAs_spaces v g) (tokens tight))

theorem repeats_value (restores : Placeholder.Restores v t u) (gap : Gap v q g rest)
    (announces : Announces mode v strict (cursor.place + e.bytes) (t :: (spaces v g ++ rest)))
    (hq : cursor.quotation = q) (blank : ∀ c ∈ e, Text.isSpace c) (uncut : cursor.isCut e = false)
    (ih : ∀ (cursor : Cursor) e, cursor.quotation = q → (cursor.last = .ipv4 ↔ u.kind = .ipv4) →
      (∀ c ∈ e, Text.isSpace c) → cursor.isCut e = false →
      Announces mode v strict (cursor.place + e.bytes) rest → Repeats v mode loose cursor e rest) :
    Repeats v mode loose cursor e (t :: (spaces v g ++ rest)) := by
  have shown : printToken v t = Placeholder.print v t :=
    printToken_placeholder restores.placeholder
  have mem : cursor.place + e.bytes ∈ mode.anchors := by
    have : cursor.place + e.bytes ∈ mode.anchors.filter (cursor.place + e.bytes ≤ ·) := by
      rw [announces.anchors, printFrom_cons gap]
      simp [restores.placeholder]
    exact (List.mem_filter.1 this).1
  refine repeats_cons (c := '%') (x := Placeholder.body v t ++ ['%']) (b := [])
    (z := between v g rest) gap rfl blank uncut (by simp [shown, Placeholder.print]) rfl
    (Or.inl rfl) (by decide) (f := ⟨u, (Placeholder.body v t).length + 1, q⟩) ?_ (by simp)
    (fun space => .value space restores) rfl fun behind hq last place uncut => ?_
  · have run := restores.isReadable.run?_print (between v g rest ++
      (printFrom v none (cursor.place + e.bytes + (printToken v t).bytes +
        (between v g rest).bytes) rest).text)
    simp only [Placeholder.print, List.cons_append, List.append_assoc, List.nil_append] at run
    simp [found, placeholder?, announces.allows _ mem, run, restores.parse, hq]
  · refine ih behind _ hq (by rw [last]) (fun d hd => (gap.between_blank hd).1) uncut ?_
    rw [place]
    exact announces.behind gap rfl

/-- No placeholder is read at the place of a literal. -/
theorem placeholder?_of_reads (reads : Reads v strict q after t line q')
    (announces : Announces mode v strict start (t :: line))
    (whole : mode.anchors = [] → w = stretch v t line) :
    placeholder? v mode cursor start w = none := by
  obtain ⟨c, x, b, y, value, -⟩ := reads.found
  rw [placeholder?]
  split
  · next allowed =>
    have away := (announces.next reads.literal (by simp [value])).1
    obtain ⟨everywhere, empty⟩ := announces.others _ allowed away
    rw [whole empty]
    cases run : Placeholder.run? (stretch v t line) with
    | none => rfl
    | some found => simp [reads.run everywhere found.1 found.2 run]
  · rfl

theorem repeats_literal (reads : Reads v strict q after t (spaces v g ++ rest) q')
    (gap : Gap v q' g rest)
    (announces : Announces mode v strict (cursor.place + e.bytes) (t :: (spaces v g ++ rest)))
    (hq : cursor.quotation = q) (last : cursor.last = .ipv4 ↔ after)
    (blank : ∀ c ∈ e, Text.isSpace c) (uncut : cursor.isCut e = false)
    (ih : ∀ (cursor : Cursor) e, cursor.quotation = q' → (cursor.last = .ipv4 ↔ False) →
      (∀ c ∈ e, Text.isSpace c) → cursor.isCut e = false →
      Announces mode v strict (cursor.place + e.bytes) rest → Repeats v mode loose cursor e rest) :
    Repeats v mode loose cursor e (t :: (spaces v g ++ rest)) := by
  obtain ⟨c, x, b, y, value, hc, follow, hb, next⟩ := reads.found
  obtain ⟨behind, text, window, ending⟩ := window_eq announces reads.literal value
  have shown : printToken v t = t.value := printToken_literal reads.literal
  let place := cursor.place + e.bytes + (printToken v t).bytes + (between v g rest).bytes
  have behindValue : between v g rest ++ (printFrom v none place rest).text = b ++ y ++ behind := by
    rw [printFrom_cons gap, stretch_eq, follow, List.append_assoc] at text
    simp only [shown] at text
    simpa [place, shown] using List.append_cancel_left text
  -- The blank that was taken is what is printed between the literal and the rest.
  obtain ⟨e', joined⟩ : ∃ e', between v g rest = b ++ e' := by
    rcases hb with rfl | ⟨off, rfl⟩
    · exact ⟨_, rfl⟩
    · cases rest with
      | nil => simp [between, off, printFrom] at behindValue
      | cons u rest => exact ⟨[], by simp [between, off]⟩
  have onward : e' ++ (printFrom v none place rest).text = y ++ behind := by
    rw [joined, List.append_assoc, List.append_assoc] at behindValue
    exact List.append_cancel_left behindValue
  have trimmed : (if v.markSpaces then c :: (x ++ b) else Text.trimEnd (c :: (x ++ b))) =
      t.value := by
    rcases hb with rfl | ⟨off, rfl⟩
    · cases on : v.markSpaces with
      | true => simp [value]
      | false => simpa [← value] using reads.tight on
    · rw [off, ← List.cons_append, ← value, Text.trimEnd_append_blank, reads.tight off]
      rfl
  have alone : placeholder? v mode cursor (cursor.place + e.bytes)
      (c :: ((x ++ b) ++ (y ++ behind))) = none := by
    refine placeholder?_of_reads reads announces fun empty => ?_
    rw [stretch_eq, value, follow, ending empty]
    simp
  refine repeats_cons (c := c) (x := x ++ b) (b := b) (z := e') gap rfl blank uncut
    (by simp [shown, value]) joined (hb.imp_right And.left) hc
    (f := ⟨{ value := t.value, kind := .literal }, (x ++ b).length, q'⟩) ?_ rfl
    (fun _ => .literal reads.literal rfl rfl) rfl fun behind hq last place uncut => ?_
  · have eq : x ++ b ++ (y ++ behind) = x ++ Line.follow v t (spaces v g ++ rest) ++ behind := by
      rw [follow]
      simp
    rw [onward, found, alone, Option.getD_none, plain, eq, window]
    simp only [hq, next _ last]
    rw [← eq, List.take_left, trimmed]
  · refine ih behind _ hq (by rw [last]; simp) (fun d hd => ?_) uncut ?_
    · exact (gap.between_blank (by rw [joined]; exact List.mem_append_right _ hd)).1
    · rw [place]
      exact announces.behind gap rfl

/-- The text of a legible line is scanned as tokens that are printed as the line is. -/
theorem tokens_legible (legible : Legible v strict loose q after line) (hq : cursor.quotation = q)
    (last : cursor.last = .ipv4 ↔ after) (blank : ∀ c ∈ e, Text.isSpace c)
    (uncut : cursor.isCut e = false)
    (announces : Announces mode v strict (cursor.place + e.bytes) line) :
    Repeats v mode loose cursor e line := by
  induction legible generalizing cursor e with
  | nil => exact repeats_nil blank uncut
  | value restores gap _ ih =>
    exact repeats_value restores gap announces hq blank uncut fun cursor e hq last blank
      uncut announces => ih hq (by simpa using last) blank uncut announces
  | literal reads gap _ ih =>
    exact repeats_literal reads gap announces hq last blank uncut fun cursor e hq last blank
      uncut announces => ih hq (by simpa using last) blank uncut announces
  | @glued _ _ t u rest isLoose off ht hu _ ih =>
    have same := printFrom_glued off ht hu (cursor.place + e.bytes) rest
    obtain ⟨again, scan, print, empty, near, -⟩ := ih hq last blank uncut
      ⟨by rw [announces.anchors, same], announces.allows, announces.others⟩
    rw [same] at scan print
    exact ⟨again, scan, print, empty, near, fun tight => by simp [isLoose] at tight⟩

end Scan

end LogTemplate
