import ClawMux.Services.MappingBind

namespace ClawMux
set_option autoImplicit true
open Lib

def Tables.channel (t : Tables) (provider provider_user_id : String) : Option String :=
  (t.user_channels.find? fun c => c.provider = provider ∧ c.provider_user_id = provider_user_id).map
    (·.channel_id)

/-- UPDATE of the row of the identity, or INSERT when none was updated. -/
def upsert_channel (t : Tables) (provider provider_user_id channel_id : String) : Tables :=
  if t.user_channels.any fun c => c.provider = provider ∧ c.provider_user_id = provider_user_id then
    { t with user_channels := t.user_channels.map fun c =>
      if c.provider = provider ∧ c.provider_user_id = provider_user_id then
        { c with channel_id := channel_id }
      else c }
  else
    { t with user_channels := t.user_channels ++ [⟨provider, provider_user_id, channel_id⟩] }

def remember_channel (db : Db) (provider provider_user_id channel_id : String) :
    Except MappingError Db := do
  let p ← validate_provider provider
  commit (upsert_channel db.toTables p provider_user_id channel_id)

def get_channel (db : Db) (provider provider_user_id : String) :
    Except MappingError (Option String) := do
  let p ← validate_provider provider
  return db.channel p provider_user_id

theorem commit_ok {t : Tables} (h : commit t = .ok db) : db.toTables = t := by
  unfold commit at h
  split at h
  · cases h
    rfl
  · cases h

theorem find_set_channel (l : List UserChannel) (p u c q v : String) :
    ((l.map fun x => if x.provider = p ∧ x.provider_user_id = u then
        { x with channel_id := c } else x).find?
      fun x => x.provider = q ∧ x.provider_user_id = v).map (·.channel_id) =
    if (q = p ∧ v = u) ∧ l.any fun x => x.provider = p ∧ x.provider_user_id = u then some c
    else (l.find? fun x => x.provider = q ∧ x.provider_user_id = v).map (·.channel_id) := by
  induction l with
  | nil => simp
  | cons x l ih =>
    rw [List.map_cons, List.find?_cons, List.find?_cons, List.any_cons]
    by_cases hx : x.provider = p ∧ x.provider_user_id = u
    · obtain ⟨rfl, rfl⟩ := hx
      by_cases hk : q = x.provider ∧ v = x.provider_user_id
      · obtain ⟨rfl, rfl⟩ := hk
        simp
      · have hne : ¬ (x.provider = q ∧ x.provider_user_id = v) := fun h => hk ⟨h.1.symm, h.2.symm⟩
        simp only [true_and, ↓reduceIte, hne, decide_false, ih, hk, false_and]
    · by_cases hk : x.provider = q ∧ x.provider_user_id = v
      · obtain ⟨rfl, rfl⟩ := hk
        simp [hx]
      · simp only [hx, ↓reduceIte, hk, decide_false, ih, Bool.false_or]

/-- The row of the identity holds the channel, and the rows of all others are left alone. -/
theorem upsert_channel_channel (t : Tables) (p u c q v : String) :
    (upsert_channel t p u c).channel q v = if q = p ∧ v = u then some c else t.channel q v := by
  unfold upsert_channel Tables.channel
  split
  · rename_i hany
    simp only [find_set_channel, hany, and_true]
  · rename_i hany
    simp only [List.find?_append]
    by_cases hk : q = p ∧ v = u
    · obtain ⟨rfl, rfl⟩ := hk
      have hn :
          (t.user_channels.find? fun x => x.provider = q ∧ x.provider_user_id = v) = none := by
        rw [List.find?_eq_none]
        intro x hx hp
        exact hany (List.any_eq_true.mpr ⟨x, hx, hp⟩)
      rw [hn]
      simp
    · have hne : ¬ (p = q ∧ u = v) := fun h => hk ⟨h.1.symm, h.2.symm⟩
      simp [hne, hk]

theorem remember_channel_ok (hp : validate_provider p = .ok q)
    (h : remember_channel db p u c = .ok db') (q' v : String) :
    db'.channel q' v = if q' = q ∧ v = u then some c else db.channel q' v := by
  obtain ⟨q₁, hq, h⟩ := bind_ok h
  cases hp.symm.trans hq
  rw [commit_ok h, upsert_channel_channel]

theorem get_channel_ok (hp : validate_provider p = .ok q) (db : Db) (u : String) :
    get_channel db p u = .ok (db.channel q u) := by
  simp only [get_channel, hp]
  rfl

end ClawMux
