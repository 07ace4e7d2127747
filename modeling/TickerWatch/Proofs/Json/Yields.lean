import TickerWatch.Json.Compound

namespace TickerWatch.Json

def Decoder.Yields {α : Type} (d : Decoder α) (p : α → Prop) : Prop :=
  ∀ cs a rest, d.text cs = .ok (a, rest) → p a

def Cursor.Yields {κ σ : Type} (c : Cursor κ σ) : Prop :=
  ∀ {α : Type} {d : Decoder α} {p : α → Prop}, d.Yields p →
    ∀ segment s a s', c.read segment d s = .ok (a, s') → p a

variable {α β σ τ : Type} {d : Decoder α} {p : α → Prop}

theorem bind_ok {ε γ δ : Type} {x : Except ε γ} {f : γ → Except ε δ} {b : δ} :
    x >>= f = .ok b ↔ ∃ a, x = .ok a ∧ f a = .ok b := by
  cases x <;> simp [bind, Except.bind]

theorem mapError_ok {ε ε' γ : Type} {x : Except ε γ} {f : ε → ε'} {a : γ} :
    x.mapError f = .ok a ↔ x = .ok a := by
  cases x with
  | error err => exact ⟨nofun, nofun⟩
  | ok b =>
    constructor
    · rintro ⟨⟩
      rfl
    · rintro ⟨⟩
      rfl

theorem map_ok {ε γ δ : Type} {x : Except ε γ} {f : γ → δ} {b : δ} :
    x.map f = .ok b ↔ ∃ a, x = .ok a ∧ f a = b := by
  cases x <;> simp [Except.map]

theorem textItems_yields : textItems.Yields := by
  intro α d p yields segment s a s' h
  exact yields s a s' (mapError_ok.mp h)

theorem textMembers_yields : textMembers.Yields := by
  intro α d p yields segment s a s' h
  obtain ⟨cs, -, read⟩ := bind_ok.mp h
  exact yields cs a s' (mapError_ok.mp read)

namespace Decoder

theorem Yields.mono {q : α → Prop} (yields : d.Yields p) (weaker : ∀ a, p a → q a) :
    d.Yields q :=
  fun cs a rest h => weaker a (yields cs a rest h)

theorem yields_any (d : Decoder α) : d.Yields fun _ => True := fun _ _ _ _ => trivial

theorem map_yields {f : α → β} {q : β → Prop} (yields : d.Yields fun a => q (f a)) :
    (d.map f).Yields q := by
  intro cs b rest h
  obtain ⟨⟨a, after⟩, read, same⟩ := map_ok.mp h
  cases same
  exact yields cs a rest read

theorem ofShapes_yields {shapes : Shapes α}
    (list : ∀ cs a rest, shapes.list textItems cs = .ok (a, rest) → p a)
    (object : ∀ cs a rest, shapes.object textMembers cs = .ok (a, rest) → p a)
    (scalar : ∀ s a, shapes.scalar s = .ok a → p a) : (ofShapes shapes).Yields p := by
  intro cs a rest h
  simp only [ofShapes] at h
  split at h
  · exact list _ a rest h
  · exact object _ a rest h
  · obtain ⟨⟨found, after⟩, -, h⟩ := bind_ok.mp h
    obtain ⟨b, made, same⟩ := bind_ok.mp h
    cases same
    exact scalar found a (mapError_ok.mp made)

end Decoder

theorem readItems_yields {c : Cursor Unit σ} (faithful : c.Yields) (yields : d.Yields p)
    {fuel : Nat} {first : Bool} {index : Nat} {s s' : σ} {as : List α}
    (h : readItems c d fuel first index s = .ok (as, s')) : ∀ a ∈ as, p a := by
  induction fuel generalizing first index s as with
  | zero => cases h
  | succ fuel ih =>
    obtain ⟨⟨key, s₁⟩, -, h⟩ := bind_ok.mp h
    cases key with
    | none =>
      cases h
      simp
    | some key =>
      obtain ⟨⟨a, s₂⟩, read, h⟩ := bind_ok.mp h
      obtain ⟨⟨rest, s₃⟩, more, h⟩ := bind_ok.mp h
      cases h
      have front := faithful yields _ _ _ _ read
      have back := ih more
      simpa using ⟨front, back⟩

theorem list_yields (yields : d.Yields p) : (list d).Yields fun as => ∀ a ∈ as, p a := by
  apply Decoder.ofShapes_yields
  · intro cs as rest h
    obtain ⟨⟨items, s⟩, read, h⟩ := bind_ok.mp h
    obtain ⟨closed, -, h⟩ := bind_ok.mp h
    cases h
    exact readItems_yields textItems_yields yields read
  · intro cs as rest h
    cases h
  · intro s as h
    cases h

/-- Members are read one by one into a state, of which each keeps what is known. -/
theorem readMembers_keeps {c : Cursor String σ} (faithful : c.Yields)
    {member : String → τ → Except Fault (Decoder τ)} {inv : τ → Prop}
    (keeps : ∀ key t d, inv t → member key t = .ok d → d.Yields inv)
    {fuel : Nat} {first : Bool} {t t' : τ} {s s' : σ} (start : inv t)
    (h : readMembers c member fuel first t s = .ok (t', s')) : inv t' := by
  induction fuel generalizing first t s with
  | zero => cases h
  | succ fuel ih =>
    obtain ⟨⟨key, s₁⟩, -, h⟩ := bind_ok.mp h
    cases key with
    | none =>
      cases h
      exact start
    | some key =>
      obtain ⟨d, chosen, h⟩ := bind_ok.mp h
      obtain ⟨⟨t₁, s₂⟩, read, h⟩ := bind_ok.mp h
      have chosen := mapError_ok.mp chosen
      have next : inv t₁ := faithful (keeps key t d start chosen) _ _ _ _ read
      exact ih next h

def Properties : List Type → Type
  | [] => Unit
  | α :: αs => (α → Prop) × Properties αs

namespace Properties

def OfRow : {αs : List Type} → Properties αs → Row αs → Prop
  | [], _, _ => True
  | _ :: _, (p, ps), (a, row) => p a ∧ ps.OfRow row

def OfSlots : {αs : List Type} → Properties αs → Slots αs → Prop
  | [], _, _ => True
  | _ :: _, (p, ps), (slot, slots) => (∀ a, slot = some a → p a) ∧ ps.OfSlots slots

end Properties

def Absence.Yields (absence : Absence α) (p : α → Prop) : Prop :=
  (∀ a, absence.member = some a → p a) ∧ ∀ a, absence.item = some a → p a

namespace Fields

def Yields : {αs : List Type} → Fields αs → Properties αs → Prop
  | _, .nil, _ => True
  | _, .cons _ d absence rest, (p, ps) => d.Yields p ∧ absence.Yields p ∧ rest.Yields ps

variable {αs : List Type} {fields : Fields αs} {ps : Properties αs}

theorem empty_yields (fields : Fields αs) (ps : Properties αs) : ps.OfSlots fields.empty := by
  induction fields with
  | nil => trivial
  | cons name d absence rest ih => exact ⟨nofun, ih ps.2⟩

theorem slot?_yields {key : String} {slots : Slots αs} {d : Decoder (Slots αs)}
    (yields : fields.Yields ps) (known : ps.OfSlots slots)
    (h : fields.slot? key slots = some (.ok d)) : d.Yields ps.OfSlots := by
  induction fields with
  | nil => cases h
  | cons name reader absence rest ih =>
    obtain ⟨front, -, back⟩ := yields
    obtain ⟨value, slots⟩ := slots
    obtain ⟨held, others⟩ := known
    simp only [slot?] at h
    split at h
    · cases value with
      | some a => cases h
      | none =>
        cases h
        refine Decoder.map_yields (front.mono fun a has => ⟨?_, others⟩)
        rintro _ ⟨⟩
        exact has
    · obtain ⟨answer, found, h⟩ := Option.map_eq_some_iff.mp h
      obtain ⟨inner, rfl, rfl⟩ := map_ok.mp h
      have deeper := ih back others found
      exact Decoder.map_yields (deeper.mono fun _ has => ⟨held, has⟩)

theorem complete_yields {slots : Slots αs} {row : Row αs} (yields : fields.Yields ps)
    (known : ps.OfSlots slots) (h : fields.complete slots = .ok row) : ps.OfRow row := by
  induction fields with
  | nil => trivial
  | cons name d absence rest ih =>
    obtain ⟨-, absent, back⟩ := yields
    obtain ⟨value, slots⟩ := slots
    obtain ⟨held, others⟩ := known
    simp only [complete] at h
    split at h
    · cases h
    · rename_i a filled
      obtain ⟨row, completed, rfl⟩ := map_ok.mp h
      refine ⟨?_, ih back others completed⟩
      cases value with
      | some b => exact held a filled
      | none => exact absent.1 a filled

theorem readItems_yields {c : Cursor Unit σ} (faithful : c.Yields) {record : String} {total : Nat}
    {first : Bool} {index : Nat} {s s' : σ} {row : Row αs} (yields : fields.Yields ps)
    (h : fields.readItems c record total first index s = .ok (row, s')) : ps.OfRow row := by
  induction fields generalizing first index s s' with
  | nil => trivial
  | cons name d absence rest ih =>
    obtain ⟨front, absent, back⟩ := yields
    obtain ⟨⟨key, s₁⟩, -, h⟩ := bind_ok.mp h
    dsimp only at h
    split at h
    · obtain ⟨⟨a, s₂⟩, read, h⟩ := bind_ok.mp h
      obtain ⟨⟨row, s₃⟩, more, h⟩ := bind_ok.mp h
      cases h
      exact ⟨faithful front _ _ _ _ read, ih back more⟩
    · rename_i a substitute
      obtain ⟨⟨row, s₃⟩, more, h⟩ := bind_ok.mp h
      cases h
      exact ⟨absent.2 a substitute, ih back more⟩
    · cases h

theorem member_yields {strict : Bool} {key : String} {slots : Slots αs} {d : Decoder (Slots αs)}
    (yields : fields.Yields ps) (known : ps.OfSlots slots)
    (h : fields.member strict key slots = .ok d) : d.Yields ps.OfSlots := by
  unfold member at h
  split at h
  · rename_i answer found
    subst h
    exact slot?_yields yields known found
  · split at h
    · cases h
    · cases h
      exact Decoder.map_yields fun _ _ _ _ => known

end Fields

theorem recordWith_yields {αs : List Type} {fields : Fields αs} {ps : Properties αs}
    (strict : Bool) (name : String) (yields : fields.Yields ps) :
    (recordWith strict name fields).Yields ps.OfRow := by
  apply Decoder.ofShapes_yields
  · intro cs row rest h
    obtain ⟨⟨row', s⟩, read, h⟩ := bind_ok.mp h
    obtain ⟨closed, -, h⟩ := bind_ok.mp h
    cases h
    exact Fields.readItems_yields textItems_yields yields read
  · intro cs row rest h
    obtain ⟨⟨slots, s⟩, read, h⟩ := bind_ok.mp h
    obtain ⟨row', completed, h⟩ := bind_ok.mp h
    obtain ⟨closed, -, h⟩ := bind_ok.mp h
    cases h
    have filled : ps.OfSlots slots :=
      readMembers_keeps textMembers_yields
        (fun key slots d known chosen => Fields.member_yields yields known chosen)
        (fields.empty_yields ps) read
    exact Fields.complete_yields yields filled (mapError_ok.mp completed)
  · intro s row h
    cases h

end TickerWatch.Json
