/-! What is worth telling about data that could only be used in part, and results that carry such notices. -/

set_option autoImplicit false
namespace Compendium

inductive Notice where
  | unresolvedToken (token owner : String)
  | malformedHeader (line : String)
  | unknownTarget (recipe target : String)
  | heroWithoutId (hero : String)
  | skippedLoreToken (token : String)
  | skippedTierBlock (key : String)
  | unreadableResponse
  | responseWithoutHero
  | noShard (hero : String) (id : Int)
  | noScepter (hero : String) (id : Int)
  deriving DecidableEq, Repr

namespace Notice

def level : Notice → String
  | .skippedLoreToken _ | .skippedTierBlock _ => "DEBUG"
  | .noShard _ _ | .noScepter _ _ => "INFO"
  | _ => "WARN"

def message : Notice → String
  | .unresolvedToken token owner => "Can't find attribute %" ++ token ++ "% in " ++ owner
  | .malformedHeader line => "Malformed item section header, skipping line line=" ++ line
  | .unknownTarget recipe target => "Recipe " ++ recipe ++ " builds unknown item " ++ target
  | .heroWithoutId hero => "Hero " ++ hero ++ " has no HeroID, skipping"
  | .skippedLoreToken token => "Skipping lore token " ++ token
  | .skippedTierBlock key => "Skipping neutral block " ++ key
  | .unreadableResponse => "Unreadable herodata response: unexpected shape"
  | .responseWithoutHero => "Herodata response without a hero"
  | .noShard hero id => hero ++ "[" ++ toString id ++ "]: Didn't find a shard..."
  | .noScepter hero id => hero ++ "[" ++ toString id ++ "]: Didn't find a scepter..."

def text (notice : Notice) : String :=
  notice.level ++ " " ++ notice.message

end Notice

/-- A result and the notices of its making, in order. -/
structure Report (α : Type) where
  value : α
  notices : List Notice
  deriving Repr

namespace Report

variable {α β : Type}

def bind (report : Report α) (next : α → Report β) : Report β :=
  let result := next report.value
  ⟨result.value, report.notices ++ result.notices⟩

instance : Monad Report where
  pure value := ⟨value, []⟩
  bind := bind

theorem bind_pure (report : Report α) : bind report pure = report := by
  simp [bind, pure]

theorem bind_assoc {γ : Type} (report : Report α) (f : α → Report β) (g : β → Report γ) :
    bind (bind report f) g = bind report fun value => bind (f value) g := by
  simp [bind, List.append_assoc]

instance : LawfulMonad Report :=
  LawfulMonad.mk' Report bind_pure (fun _ _ => by simp [Bind.bind, bind, pure]) bind_assoc

def tell (notice : Notice) : Report Unit :=
  ⟨(), [notice]⟩

@[simp] theorem value_pure (a : α) : (pure a : Report α).value = a := rfl

@[simp] theorem notices_pure (a : α) : (pure a : Report α).notices = [] := rfl

@[simp] theorem value_bind (report : Report α) (next : α → Report β) :
    (report >>= next).value = (next report.value).value := rfl

@[simp] theorem notices_bind (report : Report α) (next : α → Report β) :
    (report >>= next).notices = report.notices ++ (next report.value).notices := rfl

@[simp] theorem value_map (f : α → β) (report : Report α) : (f <$> report).value = f report.value := rfl

@[simp] theorem notices_map (f : α → β) (report : Report α) : (f <$> report).notices = report.notices :=
  List.append_nil report.notices

/-- The notices of a list are those of its items, one after the other. -/
theorem mapM_eq (f : α → Report β) (items : List α) :
    items.mapM f = ⟨items.map fun item => (f item).value, items.flatMap fun item => (f item).notices⟩ := by
  induction items with
  | nil => rfl
  | cons item rest ih =>
    rw [List.mapM_cons, ih]
    simp [Bind.bind, bind, pure]

/-- What holds of the notices of every step holds of those of the run. -/
theorem forall_notices_foldlM {P : Notice → Prop} {step : β → α → Report β}
    (each : ∀ state item, ∀ notice ∈ (step state item).notices, P notice) (start : β) (items : List α) :
    ∀ notice ∈ (items.foldlM step start).notices, P notice := by
  induction items generalizing start with
  | nil => simp
  | cons item rest ih =>
    intro notice member
    rw [List.foldlM_cons, notices_bind, List.mem_append] at member
    rcases member with here | later
    · exact each start item notice here
    · exact ih _ notice later

end Report
end Compendium
