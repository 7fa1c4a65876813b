import PluginConsent.Action

namespace PluginConsent

/-- An action may have no bucket at all, which is not the same as an empty one: replacing with an empty
bucket clears it. -/
structure Policy where
  allow : Option (List String)
  ask : Option (List String)
  deny : Option (List String)
deriving DecidableEq, Repr

namespace Policy

def ofBuckets (bucket : Action → Option (List String)) : Policy :=
  ⟨bucket .allow, bucket .ask, bucket .deny⟩

def empty : Policy := ofBuckets fun _ => none

def bucket? (p : Policy) : Action → Option (List String)
  | .allow => p.allow
  | .ask => p.ask
  | .deny => p.deny

def rules (p : Policy) (a : Action) : List String := (p.bucket? a).getD []

def buckets (p : Policy) : List (Action × List String) :=
  Action.all.filterMap fun a => (p.bucket? a).map fun rs => (a, rs)

def filed (p : Policy) : List (Action × String) :=
  Action.all.flatMap fun a => (p.rules a).map fun r => (a, r)

/-- The most restrictive action whose bucket lists the rule. -/
def effective? (p : Policy) (rule : String) : Option Action :=
  Action.all.reverse.find? fun a => rule ∈ p.rules a

@[simp] theorem bucket?_ofBuckets (f : Action → Option (List String)) (a : Action) :
    (ofBuckets f).bucket? a = f a := by cases a <;> rfl

theorem eq_of_bucket? {p q : Policy} (h : ∀ a, p.bucket? a = q.bucket? a) : p = q := by
  obtain ⟨_, _, _⟩ := p
  obtain ⟨_, _, _⟩ := q
  have ha := h .allow
  have hk := h .ask
  have hd := h .deny
  simp only [bucket?] at ha hk hd
  subst ha hk hd
  rfl

end Policy

end PluginConsent
