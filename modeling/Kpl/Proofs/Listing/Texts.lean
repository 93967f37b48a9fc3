import Kpl.Table.Outline
import Kpl.Token.Lexer

namespace Kpl

/-- Lists that are cut in front of the first entry without a property have equal parts. -/
theorem append_inj_of_ends {α : Type} {P : α → Prop} {a b x y : List α} (ha : ∀ e ∈ a, P e)
    (hb : ∀ e ∈ b, P e) (hx : ∀ e ∈ x.head?, ¬ P e) (hy : ∀ e ∈ y.head?, ¬ P e)
    (h : a ++ x = b ++ y) : a = b ∧ x = y := by
  induction a generalizing b with
  | nil =>
    cases b with
    | nil => exact ⟨rfl, h⟩
    | cons e b =>
      obtain rfl : x = e :: (b ++ y) := h
      exact absurd (hb e List.mem_cons_self) (hx e rfl)
  | cons e a ih =>
    cases b with
    | nil =>
      obtain rfl : e :: (a ++ x) = y := h
      exact absurd (ha e List.mem_cons_self) (hy e rfl)
    | cons f b =>
      obtain ⟨rfl, rest⟩ := List.cons.inj h
      obtain ⟨rfl, same⟩ := ih (fun e member => ha e (List.mem_cons_of_mem _ member))
        (fun e member => hb e (List.mem_cons_of_mem _ member)) rest
      exact ⟨rfl, same⟩

theorem append_cons_inj {α : Type} {a b x y : List α} {c : α} (ha : c ∉ a) (hb : c ∉ b)
    (h : a ++ c :: x = b ++ c :: y) : a = b ∧ x = y := by
  have ends (z : List α) : ∀ e ∈ (c :: z).head?, ¬ e ≠ c := fun e first other =>
    other (Option.some.inj first).symm
  obtain ⟨front, behind⟩ := append_inj_of_ends (P := (· ≠ c))
    (fun e member same => ha (same ▸ member)) (fun e member same => hb (same ▸ member))
    (ends x) (ends y) h
  exact ⟨front, (List.cons.inj behind).2⟩

/-- Texts that are cut at `c`, which one of them has only there, have equal parts. -/
theorem append_cons_inj_of_once {α : Type} [DecidableEq α] {a b x y : List α} {c : α} (ha : c ∉ a)
    (hx : c ∉ x) (h : a ++ c :: x = b ++ c :: y) : a = b ∧ x = y := by
  have counts := congrArg (List.count c) h
  simp only [List.count_append, List.count_cons_self, List.count_eq_zero_of_not_mem ha,
    List.count_eq_zero_of_not_mem hx] at counts
  have hb : c ∉ b := List.count_eq_zero.mp (by omega)
  exact append_cons_inj ha hb h

theorem toList_toString (n : Nat) : (toString n).toList = Nat.toDigits 10 n := Nat.toList_repr

theorem isDigit_of_mem_toString {n : Nat} {c : Char} (h : c ∈ (toString n).toList) : c.isDigit := by
  rw [toList_toString] at h
  exact Nat.isDigit_of_mem_toDigits (by decide) (by decide) h

theorem notMem_toString {c : Char} (other : c.isDigit = false) (n : Nat) :
    c ∉ (toString n).toList := by
  intro member
  rw [isDigit_of_mem_toString member] at other
  cases other

theorem toDigits_injective {m n : Nat} (h : Nat.toDigits 10 m = Nat.toDigits 10 n) : m = n := by
  have values := congrArg (Nat.ofDigitChars 10 · 0) h
  simpa using values

theorem toList_toString_int (n : Int) : (toString n).toList =
    if n < 0 then '-' :: Nat.toDigits 10 n.natAbs else Nat.toDigits 10 n.natAbs := by
  cases n with
  | ofNat m => exact Nat.toList_repr
  | negSucc m =>
    show ("-" ++ Nat.repr (m + 1)).toList = _
    simp

theorem toString_int_injective {m n : Int} (h : toString m = toString n) : m = n := by
  have noSign (k : Nat) : '-' ∉ Nat.toDigits 10 k := by
    rw [← toList_toString]
    exact notMem_toString (by decide) k
  have h := congrArg String.toList h
  rw [toList_toString_int, toList_toString_int] at h
  split at h <;> split at h
  · have same := toDigits_injective (List.cons.inj h).2
    omega
  · exact absurd (h ▸ List.mem_cons_self) (noSign _)
  · exact absurd (h.symm ▸ List.mem_cons_self) (noSign _)
  · have same := toDigits_injective h
    omega

namespace Ty

theorem text_injective {a b : Ty} (h : a.text = b.text) : a = b := by
  induction a generalizing b with
  | int =>
    cases b with
    | int => rfl
    | char => exact absurd h (by decide)
    | array n b =>
      have h := congrArg String.toList h
      simp [text] at h
  | char =>
    cases b with
    | int => exact absurd h (by decide)
    | char => rfl
    | array n b =>
      have h := congrArg String.toList h
      simp [text] at h
  | array m a ih =>
    cases b with
    | int | char =>
      have h := congrArg String.toList h
      simp [text] at h
    | array n b =>
      have noBracket := notMem_toString (c := ']') (by decide)
      have h := congrArg String.toList h
      simp only [text, String.toList_append, List.append_assoc] at h
      have h := List.append_cancel_left h
      obtain ⟨sizes, rest⟩ := append_cons_inj (noBracket _) (noBracket _) h
      obtain rfl : m = n := by
        rw [toList_toString, toList_toString] at sizes
        exact UInt32.toNat_inj.mp (toDigits_injective sizes)
      rw [ih (String.toList_inj.mp (List.append_cancel_left rest))]

theorem notMem_text {c : Char} (digit : c.isDigit = false)
    (other : c ∉ "integer char array[] of ".toList) (a : Ty) : c ∉ a.text.toList := by
  simp only [String.reduceToList, List.mem_cons, not_or] at other
  induction a with
  | int => simp [text, other]
  | char => simp [text, other]
  | array n a ih =>
    have size := notMem_toString digit n.toNat
    rw [toList_toString] at size
    simp [text, size, ih, other]

theorem newline_notMem_text (a : Ty) : '\n' ∉ a.text.toList :=
  a.notMem_text (by decide) (by decide)

end Ty

namespace Constant

theorem text_injective {a b : Constant} (h : a.text = b.text) : a = b := by
  have noQuote (n : Int32) : '\x27' ∉ (int n).text.toList := by
    have digits := notMem_toString (c := '\x27') (by decide) n.toInt.natAbs
    rw [toList_toString] at digits
    rw [text, toList_toString_int]
    split <;> simp [digits]
  have quoted (c : Char) : '\x27' ∈ (char c).text.toList := by simp [text]
  cases a with
  | int m =>
    cases b with
    | int n => rw [Int32.toInt_inj.mp (toString_int_injective h)]
    | char c => exact absurd (h ▸ quoted c) (noQuote m)
  | char c =>
    cases b with
    | int n => exact absurd (h.symm ▸ quoted c) (noQuote n)
    | char d =>
      have h := congrArg String.toList h
      have same : c = d := by simpa [text] using h
      rw [same]

theorem newline_notMem_text (a : Constant) (visible : a ≠ .char '\n') : '\n' ∉ a.text.toList := by
  cases a with
  | int n =>
    have digits := notMem_toString (c := '\n') (by decide) n.toInt.natAbs
    rw [toList_toString] at digits
    rw [text, toList_toString_int]
    split <;> simp [digits]
  | char c =>
    have other : '\n' ≠ c := fun same => visible (same ▸ rfl)
    simp [text, other]

end Constant

def Meaning.bare : Meaning → Meaning
  | program _ => program ⟨0⟩
  | function _ returns _ => function [] returns ⟨0⟩
  | procedure _ _ => procedure [] ⟨0⟩
  | param mode ty _ => param mode ty ⟨0⟩
  | other => other

/-- What a listing says of an object: neither its place nor its numbers. -/
def Object.bare (o : Object) : Object := ⟨o.name, none, o.meaning.bare⟩

theorem listing_bare (o : Object) : o.bare.listing = o.listing := by
  obtain ⟨name, loc, meaning⟩ := o
  cases meaning with
  | function _ returns _ => cases returns <;> rfl
  | param mode _ _ => cases mode <;> rfl
  | _ => rfl

def IsWord (name : String) : Prop := name.toList ≠ [] ∧ ∀ c ∈ name.toList, Lexer.isWordChar c

/-- An object whose listing can be read back: its name is a word, and it takes one line. -/
structure Object.Legible (o : Object) : Prop where
  name : IsWord o.name
  visible : o.meaning ≠ .const (.char '\n')

theorem IsWord.notMem {name : String} (word : IsWord name) {c : Char}
    (other : Lexer.isWordChar c = false) : c ∉ name.toList := by
  intro member
  rw [word.2 c member] at other
  cases other

theorem IsWord.cut {a b : String} {x y : List Char} (ha : IsWord a) (hb : IsWord b)
    (h : a.toList ++ ' ' :: x = b.toList ++ ' ' :: y) : a = b ∧ x = y := by
  obtain ⟨names, rest⟩ := append_cons_inj (ha.notMem (by decide)) (hb.notMem (by decide)) h
  exact ⟨String.toList_inj.mp names, rest⟩

theorem blank_notMem_className (m : Meaning) : ' ' ∉ m.className.toList := by
  cases m <;> (rw [Meaning.className]; decide)

def Meaning.details (name : String) : Meaning → String
  | program _ | procedure .. | function _ none _ => name
  | const value => name ++ (" = " ++ value.text)
  | type actual => name ++ (" = " ++ actual.text)
  | var ty | function _ (some ty) _ | param .value ty _ => name ++ (" : " ++ ty.text)
  | param .reference ty _ => "VAR " ++ (name ++ (" : " ++ ty.text))

theorem listing_eq (o : Object) :
    o.listing = o.meaning.className ++ (" " ++ o.meaning.details o.name) := by
  obtain ⟨name, loc, meaning⟩ := o
  cases meaning with
  | function _ returns _ =>
    cases returns <;> simp [Object.listing, Meaning.details, String.append_assoc]
  | param mode _ _ => cases mode <;> simp [Object.listing, Meaning.details, String.append_assoc]
  | _ => simp [Object.listing, Meaning.details, String.append_assoc]

theorem className_injective {m n : Meaning} (h : m.className = n.className) :
    m.ctorIdx = n.ctorIdx := by
  cases m <;> cases n
  all_goals first
    | rfl
    | rw [Meaning.className, Meaning.className] at h
      exact absurd h (by decide)

/-- A name and what is said of it, with a sign between them that starts with a blank. -/
theorem IsWord.described {a b sign x y : String} (ha : IsWord a) (hb : IsWord b)
    (blank : ∃ rest, sign.toList = ' ' :: rest) (h : a ++ (sign ++ x) = b ++ (sign ++ y)) :
    a = b ∧ x = y := by
  obtain ⟨rest, blank⟩ := blank
  have h := congrArg String.toList h
  simp only [String.toList_append, blank, List.cons_append] at h
  obtain ⟨names, details⟩ := ha.cut hb h
  exact ⟨names, String.toList_inj.mp (List.append_cancel_left details)⟩

theorem IsWord.typed {a b : String} {x y : Ty} (ha : IsWord a) (hb : IsWord b)
    (h : a ++ (" : " ++ x.text) = b ++ (" : " ++ y.text)) : a = b ∧ x = y := by
  obtain ⟨names, texts⟩ := ha.described hb ⟨_, rfl⟩ h
  exact ⟨names, Ty.text_injective texts⟩

theorem IsWord.not_described {a b x : String} (ha : IsWord a) (h : a = b ++ (" : " ++ x)) :
    False := by
  have blank : ' ' ∈ (b ++ (" : " ++ x)).toList := by simp
  exact ha.notMem (by decide) (h ▸ blank)

/-- A name that is said to be `VAR` is no parameter by reference. -/
theorem IsWord.not_reference {a b x y : String} (ha : IsWord a) (hb : IsWord b)
    (h : a ++ (" : " ++ x) = "VAR " ++ (b ++ y)) : False := by
  have h := congrArg String.toList h
  simp only [String.toList_append] at h
  have var : IsWord "VAR" := ⟨nofun, List.all_eq_true.mp rfl⟩
  obtain ⟨_, details⟩ := ha.cut var h
  obtain ⟨some, letters⟩ := hb
  cases chars : b.toList with
  | nil => exact some chars
  | cons c rest =>
    rw [chars] at details letters
    obtain ⟨rfl, _⟩ := List.cons.inj details
    exact absurd (letters _ List.mem_cons_self) (by decide)

theorem details_injective {a b : String} {m n : Meaning} (ha : IsWord a) (hb : IsWord b)
    (same : m.ctorIdx = n.ctorIdx) (h : m.details a = n.details b) : a = b ∧ m.bare = n.bare := by
  cases m <;> cases n <;> cases same
  case program.program => exact ⟨h, rfl⟩
  case procedure.procedure => exact ⟨h, rfl⟩
  case const.const value value' =>
    obtain ⟨names, texts⟩ := ha.described hb ⟨_, rfl⟩ h
    rw [Constant.text_injective texts]
    exact ⟨names, rfl⟩
  case type.type ty ty' =>
    obtain ⟨names, texts⟩ := ha.described hb ⟨_, rfl⟩ h
    rw [Ty.text_injective texts]
    exact ⟨names, rfl⟩
  case var.var ty ty' =>
    obtain ⟨names, rfl⟩ := ha.typed hb h
    exact ⟨names, rfl⟩
  case function.function _ returns _ _ returns' _ =>
    cases returns with
    | none =>
      cases returns' with
      | none => exact ⟨h, rfl⟩
      | some ty' => exact (ha.not_described h).elim
    | some ty =>
      cases returns' with
      | none => exact (hb.not_described h.symm).elim
      | some ty' =>
        obtain ⟨names, rfl⟩ := ha.typed hb h
        exact ⟨names, rfl⟩
  case param.param mode ty _ mode' ty' _ =>
    cases mode with
    | value =>
      cases mode' with
      | value =>
        obtain ⟨names, rfl⟩ := ha.typed hb h
        exact ⟨names, rfl⟩
      | reference => exact (ha.not_reference hb h).elim
    | reference =>
      cases mode' with
      | value => exact (hb.not_reference ha h.symm).elim
      | reference =>
        obtain ⟨names, rfl⟩ := ha.typed hb (String.append_right_inj _ |>.mp h)
        exact ⟨names, rfl⟩

theorem listing_injective {o p : Object} (ho : o.Legible) (hp : p.Legible)
    (h : o.listing = p.listing) : o.bare = p.bare := by
  have h := congrArg String.toList h
  simp only [listing_eq, String.toList_append] at h
  obtain ⟨classes, details⟩ := append_cons_inj (blank_notMem_className o.meaning)
    (blank_notMem_className p.meaning) h
  have same := className_injective (String.toList_inj.mp classes)
  obtain ⟨names, meanings⟩ := details_injective ho.name hp.name same (String.toList_inj.mp details)
  rw [Object.bare, Object.bare, names, meanings]

theorem newline_notMem_listing {o : Object} (legible : o.Legible) : '\n' ∉ o.listing.toList := by
  have name := legible.name.notMem (c := '\n') (by decide)
  have types := Ty.newline_notMem_text
  obtain ⟨_, visible⟩ := legible
  obtain ⟨_, _, m⟩ := o
  rw [listing_eq]
  cases m with
  | const value =>
    have text := value.newline_notMem_text fun same => visible (same ▸ rfl)
    simp [Meaning.className, Meaning.details, name, text]
  | function _ returns _ => cases returns <;> simp [Meaning.className, Meaning.details, name, types]
  | param mode _ _ => cases mode <;> simp [Meaning.className, Meaning.details, name, types]
  | _ => simp [Meaning.className, Meaning.details, name, types]

theorem listing_front (o : Object) : ∃ c rest, o.listing.toList = c :: rest ∧ c ≠ ' ' := by
  have blank := blank_notMem_className o.meaning
  have some : o.meaning.className.toList ≠ [] := by
    cases o.meaning <;> simp [Meaning.className]
  obtain ⟨c, rest, word⟩ := List.exists_cons_of_ne_nil some
  rw [word, List.mem_cons, not_or] at blank
  refine ⟨c, rest ++ (" " ++ o.meaning.details o.name).toList, ?_, Ne.symm blank.1⟩
  rw [listing_eq, String.toList_append, word, List.cons_append]

end Kpl
