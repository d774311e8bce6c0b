import Mathlib.Data.List.Forall2
import ClassCli.Proofs.Decimal.Rounding
import ClassCli.Proofs.Json.Held

/-!
# Literals as JSON, and properties of all parts

Every literal is written as a value from which the same literal is read, whatever it holds. Holding the
value in between costs nothing if all numbers in it are finite, and literals that are read from a held
value are of that kind.

Arguments and flags stand at different depths of a description. What is asked of all of them is said once
here, and so is what it means that two descriptions agree although their flags list their values in
different orders.

* **`Literal.ofJson?_toJson`** — what is written is read back.
* **`Literal.held_toJson`** — finite literals are written as they are held.
* **`Literal.finite_of_ofJson?`** — only finite literals are read from values that can be held.
* **`Collection.Each`** — whether every argument and every flag is as asked.
* **`Collection.Agrees`** — equality in all fields, the values of flags compared as maps.
* **`Collection.agrees_inNameOrder`** — the order of the values alone makes no difference.
-/

namespace ClassCli

open Decimal (Binary64)

/-! ## Integers as floating-point numbers -/

namespace Decimal.Binary64

theorem roundHalfEven_le (num den : Nat) : roundHalfEven num den ≤ num / den + 1 := by
  unfold roundHalfEven
  dsimp only
  split
  · omega
  · split
    · omega
    · omega

/-- An integer of sixty-four bits is far below the greatest number. -/
theorem roundedMagnitude_lt {n : Nat} (hlow : 0x8000000000000000 ≤ n) (hhigh : n < 0x10000000000000000) :
    roundedMagnitude n 1 < infinityWord := by
  have hne : n ≠ 0 := by omega
  have hlog : Nat.log2 n = 63 := by
    have hge : 63 ≤ Nat.log2 n := (Nat.le_log2 hne).mpr hlow
    have hlt : Nat.log2 n < 64 := (Nat.log2_lt hne).mpr hhigh
    omega
  have hone : Nat.log2 1 = 0 := rfl
  have hlead : 1 <<< (((63 : Nat) : Int) - ((0 : Nat) : Int)).toNat
      ≤ n <<< (-(((63 : Nat) : Int) - ((0 : Nat) : Int))).toNat := hlow
  have hunit : max (((63 : Nat) : Int) - ((0 : Nat) : Int) - 52) (-1074) = 11 := rfl
  have hnum : n <<< (-(11 : Int)).toNat = n := rfl
  have hden : 1 <<< (11 : Int).toNat = 2048 := rfl
  have hexponent : ((11 : Int) + 1074).toNat = 1085 := rfl
  have hquotient : n / 2048 ≤ 0x20000000000000 := by omega
  have hsignificand := roundHalfEven_le n 2048
  have hinfinity : infinityWord = 0x7ff0000000000000 := rfl
  have hleading : leadingBit = 0x10000000000000 := rfl
  rw [roundedMagnitude, if_neg hne, hlog, hone]
  dsimp only
  rw [if_pos hlead, hunit, hnum, hden, hexponent]
  omega

theorem isFinite_ofRatio {n : Nat} (hlow : 0x8000000000000000 ≤ n) (hhigh : n < 0x10000000000000000) (negative : Bool) :
    (ofRatio negative n 1).isFinite = true := by
  have hlt := roundedMagnitude_lt hlow hhigh
  have hword : infinityWord < signWord := by decide
  rw [isFinite, ofRatio, magnitude_ofMagnitude (Nat.lt_trans hlt hword), decide_eq_true_iff]
  exact hlt

end Decimal.Binary64

/-! ## Literals -/

namespace Literal

open Json (held Representable)

mutual

/-- Whether every floating-point number in a literal is finite. -/
def Finite : Literal → Prop
  | .float x => x.isFinite = true
  | .list items => FiniteAll items
  | _ => True

/-- The same for every literal of a list. -/
def FiniteAll : List Literal → Prop
  | [] => True
  | x :: xs => Finite x ∧ FiniteAll xs

end

theorem ofInteger_toInt (i : Int64) : ofInteger i.toInt = .int i := by
  have hlow : -0x8000000000000000 ≤ i.toInt := i.le_toInt
  have hhigh : i.toInt < 0x8000000000000000 := i.toInt_lt
  have hfits : (decide (-0x8000000000000000 ≤ i.toInt) && decide (i.toInt < 0x8000000000000000)) = true := by
    rw [decide_eq_true hlow, decide_eq_true hhigh, Bool.true_and]
  rw [ofInteger, if_pos hfits, Int64.ofInt_toInt]

mutual

theorem ofJson?_toJson : ∀ literal : Literal, ofJson? literal.toJson = some literal
  | .none => rfl
  | .bool _ => rfl
  | .int i => by rw [toJson, ofJson?, ofInteger_toInt]
  | .float _ => rfl
  | .str _ => rfl
  | .list items => by rw [toJson, ofJson?, ofJsonAll?_toJsonAll items, Option.map_some]

theorem ofJsonAll?_toJsonAll : ∀ items : List Literal, ofJsonAll? (toJsonAll items) = some items
  | [] => rfl
  | x :: xs => by rw [toJsonAll, ofJsonAll?, ofJson?_toJson x, ofJsonAll?_toJsonAll xs]

end

mutual

theorem held_toJson : ∀ {literal : Literal}, literal.Finite → held literal.toJson = literal.toJson
  | .none, _ => rfl
  | .bool _, _ => rfl
  | .int _, _ => rfl
  | .float x, h => by
    rw [Finite] at h
    rw [toJson, held, Json.withoutInfinities, if_pos h]
    rfl
  | .str _, _ => rfl
  | .list items, h => by
    rw [Finite] at h
    rw [toJson, Json.held_array, map_held_toJsonAll h]

theorem map_held_toJsonAll :
    ∀ {items : List Literal}, FiniteAll items → (toJsonAll items).map held = toJsonAll items
  | [], _ => rfl
  | x :: xs, h => by
    rw [FiniteAll] at h
    rw [toJsonAll, List.map_cons, held_toJson h.1, map_held_toJsonAll h.2]

end

/-- Only an integer that needs all sixty-four bits becomes a floating-point number. -/
theorem finite_ofInteger {i : Int} (h : Representable (.int i)) : (ofInteger i).Finite := by
  rw [Representable] at h
  rw [ofInteger]
  split
  · exact trivial
  · rename_i hi
    have hbig : 0x8000000000000000 ≤ i := by
      simp only [Bool.and_eq_true, decide_eq_true_iff, not_and] at hi
      have := hi h.1
      omega
    have hlow : 0x8000000000000000 ≤ i.natAbs := by omega
    have hhigh : i.natAbs < 0x10000000000000000 := by omega
    rw [Finite]
    exact Binary64.isFinite_ofRatio hlow hhigh _

mutual

theorem finite_of_ofJson? :
    ∀ {value : Json} {literal : Literal}, Representable value → ofJson? value = some literal →
      literal.Finite
  | .null, _, _, h => by
    cases h
    trivial
  | .bool _, _, _, h => by
    cases h
    trivial
  | .int i, _, hv, h => by
    cases h
    exact finite_ofInteger hv
  | .float x, _, hv, h => by
    cases h
    exact hv
  | .string _, _, _, h => by
    cases h
    trivial
  | .array items, _, hv, h => by
    rw [ofJson?, Option.map_eq_some_iff] at h
    obtain ⟨literals, hliterals, rfl⟩ := h
    exact finiteAll_of_ofJsonAll? hv hliterals
  | .object _, _, _, h => by cases h

theorem finiteAll_of_ofJsonAll? :
    ∀ {values : List Json} {literals : List Literal}, Json.RepresentableAll values →
      ofJsonAll? values = some literals → FiniteAll literals
  | [], _, _, h => by
    cases h
    trivial
  | value :: values, _, hv, h => by
    rw [ofJsonAll?] at h
    split at h
    · rename_i first rest hfirst hrest
      cases h
      exact ⟨finite_of_ofJson? hv.1 hfirst, finiteAll_of_ofJsonAll? hv.2 hrest⟩
    · cases h

end

end Literal

end ClassCli

namespace ClassCli.Interface

/-! ## Every argument and every flag -/

def Command.Each (P : Argument → Prop) (Q : Flag → Prop) (command : Command) : Prop :=
  (∀ arg ∈ command.args, P arg) ∧ ∀ flag ∈ command.flags, Q flag

def Module.Each (P : Argument → Prop) (Q : Flag → Prop) (m : Module) : Prop :=
  (∀ arg ∈ m.args, P arg) ∧ ∀ command ∈ m.commands, command.Each P Q

/-- Whether every argument and every flag of a collection is as asked. -/
def Collection.Each (P : Argument → Prop) (Q : Flag → Prop) (c : Collection) : Prop :=
  ∀ m ∈ c.modules, m.Each P Q

theorem Command.Each.mono {P P' : Argument → Prop} {Q Q' : Flag → Prop} (hP : ∀ arg, P arg → P' arg)
    (hQ : ∀ flag, Q flag → Q' flag) {command : Command} (h : command.Each P Q) :
    command.Each P' Q' :=
  ⟨fun arg harg => hP arg (h.1 arg harg), fun flag hflag => hQ flag (h.2 flag hflag)⟩

theorem Module.Each.mono {P P' : Argument → Prop} {Q Q' : Flag → Prop} (hP : ∀ arg, P arg → P' arg)
    (hQ : ∀ flag, Q flag → Q' flag) {m : Module} (h : m.Each P Q) : m.Each P' Q' :=
  ⟨fun arg harg => hP arg (h.1 arg harg), fun command hcommand => (h.2 command hcommand).mono hP hQ⟩

theorem Collection.Each.mono {P P' : Argument → Prop} {Q Q' : Flag → Prop}
    (hP : ∀ arg, P arg → P' arg) (hQ : ∀ flag, Q flag → Q' flag) {c : Collection} (h : c.Each P Q) :
    c.Each P' Q' :=
  fun m hm => (h m hm).mono hP hQ

/-- Whether the default of an argument has only finite numbers. -/
def Argument.Finite (arg : Argument) : Prop :=
  ∀ literal, arg.default = some literal → literal.Finite

/-- Whether the values of a flag have only finite numbers. -/
def Flag.Finite (flag : Flag) : Prop := ∀ entry ∈ flag.values, entry.2.Finite

/-- Whether no key of a flag comes twice. -/
def Flag.Distinct (flag : Flag) : Prop := (Entries.keys flag.values).Nodup

/-- Whether every floating-point number in a collection is finite. -/
def Collection.Finite (c : Collection) : Prop := c.Each Argument.Finite Flag.Finite

/-- Whether the values of every flag form a map. -/
def Collection.Distinct (c : Collection) : Prop := c.Each (fun _ => True) Flag.Distinct

/-! ## Agreement -/

/-- Whether two flags have the same name and the same value under every key. -/
structure Flag.Agrees (a b : Flag) : Prop where
  name : a.name = b.name
  values : ∀ key, Entries.get? key a.values = Entries.get? key b.values

structure Command.Agrees (a b : Command) : Prop where
  name : a.name = b.name
  help : a.help = b.help
  args : a.args = b.args
  flags : List.Forall₂ Flag.Agrees a.flags b.flags

structure Module.Agrees (a b : Module) : Prop where
  name : a.name = b.name
  help : a.help = b.help
  args : a.args = b.args
  commands : List.Forall₂ Command.Agrees a.commands b.commands
  location : a.location = b.location

/-- Whether two collections are equal in all fields of all parts, apart from the order of the values in
flags. -/
def Collection.Agrees (a b : Collection) : Prop := List.Forall₂ Module.Agrees a.modules b.modules

/-! ## Values in the order of their keys -/

def Flag.inNameOrder (flag : Flag) : Flag := { flag with values := Json.sorted flag.values }

def Command.inNameOrder (command : Command) : Command :=
  { command with flags := command.flags.map Flag.inNameOrder }

def Module.inNameOrder (m : Module) : Module :=
  { m with commands := m.commands.map Command.inNameOrder }

/-- The collection with the values of every flag in ascending order of their keys. -/
def Collection.inNameOrder (c : Collection) : Collection := ⟨c.modules.map Module.inNameOrder⟩

theorem Flag.agrees_inNameOrder {flag : Flag} (h : flag.Distinct) : flag.Agrees flag.inNameOrder :=
  ⟨rfl, fun key => (Json.get?_sorted h key).symm⟩

theorem forall₂_map_self {α : Type} {R : α → α → Prop} {f : α → α} {items : List α}
    (h : ∀ x ∈ items, R x (f x)) : List.Forall₂ R items (items.map f) :=
  List.forall₂_map_right_iff.mpr (List.forall₂_same.mpr h)

theorem Command.agrees_inNameOrder {P : Argument → Prop} {command : Command}
    (h : command.Each P Flag.Distinct) : command.Agrees command.inNameOrder :=
  ⟨rfl, rfl, rfl, forall₂_map_self fun flag hflag => Flag.agrees_inNameOrder (h.2 flag hflag)⟩

theorem Module.agrees_inNameOrder {P : Argument → Prop} {m : Module} (h : m.Each P Flag.Distinct) :
    m.Agrees m.inNameOrder :=
  ⟨rfl, rfl, rfl,
    forall₂_map_self fun command hcommand => Command.agrees_inNameOrder (h.2 command hcommand), rfl⟩

theorem Collection.agrees_inNameOrder {c : Collection} (h : c.Distinct) : c.Agrees c.inNameOrder :=
  forall₂_map_self fun m hm => Module.agrees_inNameOrder (h m hm)

/-! ## Values that are in order already -/

/-- Whether the values of a flag are in ascending order of their keys. -/
def Flag.Ordered (flag : Flag) : Prop := Json.Ascending flag.values

theorem Flag.inNameOrder_of_ordered {flag : Flag} (h : flag.Ordered) : flag.inNameOrder = flag := by
  rw [inNameOrder, Json.sorted_of_ascending h]

theorem map_eq_self {α : Type} {f : α → α} {items : List α} (h : ∀ x ∈ items, f x = x) :
    items.map f = items := by
  rw [List.map_congr_left h, List.map_id']

theorem Command.inNameOrder_of_ordered {P : Argument → Prop} {command : Command}
    (h : command.Each P Flag.Ordered) : command.inNameOrder = command := by
  rw [inNameOrder, map_eq_self fun flag hflag => Flag.inNameOrder_of_ordered (h.2 flag hflag)]

theorem Module.inNameOrder_of_ordered {P : Argument → Prop} {m : Module}
    (h : m.Each P Flag.Ordered) : m.inNameOrder = m := by
  rw [inNameOrder,
    map_eq_self fun command hcommand => Command.inNameOrder_of_ordered (h.2 command hcommand)]

theorem Collection.inNameOrder_of_ordered {P : Argument → Prop} {c : Collection}
    (h : c.Each P Flag.Ordered) : c.inNameOrder = c := by
  rw [inNameOrder, map_eq_self fun m hm => Module.inNameOrder_of_ordered (h m hm)]

end ClassCli.Interface
