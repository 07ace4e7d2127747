import TickerWatch.Proofs.Json.Yields
import TickerWatch.Rule.Json

namespace TickerWatch

namespace Field

def Canonical (f : Field) : Prop :=
  ∀ name, f = unknown name → known.lookup (Text.lower (Text.trim name)) = none

end Field

namespace Operator

def Canonical (op : Operator) : Prop :=
  ∀ symbol, op = unknown symbol → known.lookup (Text.trim symbol) = none

end Operator

namespace Reference

def Canonical (r : Reference) : Prop :=
  ∀ name, r = unknown name → known.lookup (Text.lower (Text.trim name)) = none

end Reference

structure Condition.Canonical (c : Condition) : Prop where
  field : c.field.Canonical
  operator : c.operator.Canonical
  reference : ∀ r, c.reference = some r → r.Canonical

def Rule.Canonical (r : Rule) : Prop := ∀ c ∈ r.conditions, c.Canonical

section Names

variable {α : Type} {known : List (String × α)} {unknown : String → α}

theorem mem_of_lookup {k : String} {a : α} (found : known.lookup k = some a) : (k, a) ∈ known := by
  induction known with
  | nil => cases found
  | cons e rest ih =>
    obtain ⟨name, b⟩ := e
    rw [List.lookup_cons] at found
    split at found
    · rename_i same
      cases found
      rw [beq_iff_eq.mp same]
      exact List.mem_cons_self
    · exact List.mem_cons_of_mem _ (ih found)

/-- A text is kept as unknown if it is looked up without success, and only then. -/
theorem kept_unknown (key : String → String) (injective : Function.Injective unknown)
    (apart : ∀ e ∈ known, ∀ name, e.2 ≠ unknown name) (s name : String) :
    (known.lookup (key s)).getD (unknown s) = unknown name ↔
      s = name ∧ known.lookup (key name) = none := by
  cases found : known.lookup (key s) with
  | none =>
    constructor
    · intro same
      obtain rfl := injective same
      exact ⟨rfl, found⟩
    · rintro ⟨rfl, -⟩
      rfl
  | some a =>
    constructor
    · intro same
      exact absurd same (apart _ (mem_of_lookup found) name)
    · rintro ⟨rfl, absent⟩
      rw [absent] at found
      cases found

end Names

theorem Field.ofName_eq_unknown {s name : String} :
    ofName s = unknown name ↔ s = name ∧ known.lookup (Text.lower (Text.trim name)) = none :=
  kept_unknown (fun s => Text.lower (Text.trim s)) (fun _ _ => Field.unknown.inj)
    (by simp [known]) s name

theorem Operator.ofSymbol_eq_unknown {s symbol : String} :
    ofSymbol s = unknown symbol ↔ s = symbol ∧ known.lookup (Text.trim symbol) = none :=
  kept_unknown Text.trim (fun _ _ => Operator.unknown.inj) (by simp [known]) s symbol

theorem Reference.ofName_eq_unknown {s name : String} :
    ofName s = unknown name ↔ s = name ∧ known.lookup (Text.lower (Text.trim name)) = none :=
  kept_unknown (fun s => Text.lower (Text.trim s)) (fun _ _ => Reference.unknown.inj)
    (by simp [known]) s name

theorem Field.ofName_canonical (s : String) : (ofName s).Canonical :=
  fun _ kept => (ofName_eq_unknown.mp kept).2

theorem Operator.ofSymbol_canonical (s : String) : (ofSymbol s).Canonical :=
  fun _ kept => (ofSymbol_eq_unknown.mp kept).2

theorem Reference.ofName_canonical (s : String) : (ofName s).Canonical :=
  fun _ kept => (ofName_eq_unknown.mp kept).2

theorem Field.ofName_name (f : Field) : ofName f.name = f ↔ f.Canonical := by
  cases f with
  | unknown name => simp [Canonical, Field.name, ofName_eq_unknown]
  | _ => exact ⟨nofun, fun _ => by decide +kernel⟩

theorem Operator.ofSymbol_symbol (op : Operator) : ofSymbol op.symbol = op ↔ op.Canonical := by
  cases op with
  | unknown symbol => simp [Canonical, Operator.symbol, ofSymbol_eq_unknown]
  | _ => exact ⟨nofun, fun _ => by decide +kernel⟩

theorem Reference.ofName_name (r : Reference) : ofName r.name = r ↔ r.Canonical := by
  cases r with
  | unknown name => simp [Canonical, Reference.name, ofName_eq_unknown]
  | _ => exact ⟨nofun, fun _ => by decide +kernel⟩

open Json

theorem Condition.decoder_canonical : decoder.Yields Condition.Canonical := by
  apply Decoder.map_yields
  rintro cs ⟨field, operator, value, reference, ⟨⟩⟩ rest -
  constructor <;> dsimp only
  · exact Field.ofName_canonical field
  · exact Operator.ofSymbol_canonical operator
  · intro r given
    obtain ⟨name, -, rfl⟩ := Option.map_eq_some_iff.mp given
    exact Reference.ofName_canonical name

def Rule.fields : Fields [Logic, List Condition] :=
  .cons "logic" (choice Logic.names) (byDefault .all) <|
  .cons "conditions" (list Condition.decoder) (byDefault []) .nil

theorem Rule.decoder_canonical : decoder.Yields Rule.Canonical := by
  apply Decoder.map_yields
  have canonical : fields.Yields (fun _ => True, fun cs => ∀ c ∈ cs, c.Canonical, ()) := by
    refine ⟨Decoder.yields_any _, ⟨fun _ _ => trivial, fun _ _ => trivial⟩,
      list_yields Condition.decoder_canonical, ⟨?_, ?_⟩, trivial⟩ <;>
    · rintro _ ⟨⟩
      simp
  rintro cs ⟨logic, conditions, ⟨⟩⟩ rest read
  obtain ⟨-, canonical, -⟩ := recordWith_yields false "ConditionGroup" canonical cs _ rest read
  exact canonical

/-- Reading leaves no known name in another spelling behind. -/
theorem Rule.ofJson_canonical {s : String} {r : Rule} (read : ofJson s = .ok r) : r.Canonical := by
  unfold ofJson readAll at read
  split at read
  · cases read
  · rename_i found rest front
    split at read
    · cases read
      exact decoder_canonical _ _ _ front
    · cases read

end TickerWatch
