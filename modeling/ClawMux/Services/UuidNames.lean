import ClawMux.Services.Provisioner

namespace ClawMux
set_option autoImplicit true
open Lib Lib.Text Lib.Path

theorem mem_remove {s : List Char} (hc : c ∉ w.toList) (hm : c ∈ s) : c ∈ remove w s := by
  have hall : ∀ fuel, ∀ s : List Char, c ∈ s → c ∈ eraseAll (literal w.toList) fuel s := by
    intro fuel
    induction fuel with
    | zero => exact fun s hm => hm
    | succ fuel ih =>
      intro s hm
      cases s with
      | nil => cases hm
      | cons d s =>
        rw [eraseAll, literal]
        split
        · rename_i found rest hfound
          split at hfound
          · rename_i hpre
            cases hfound
            obtain ⟨rest, hrest⟩ := List.isPrefixOf_iff_prefix.mp hpre
            rw [← hrest] at hm ⊢
            rw [List.drop_left]
            exact ih rest ((List.mem_append.mp hm).resolve_left hc)
          · cases hfound
        · rcases List.mem_cons.mp hm with rfl | hm
          · exact List.mem_cons_self
          · exact List.mem_cons_of_mem _ (ih s hm)
  exact hall s.length s hm

theorem mem_dropWhile {p : Char → Bool} {s : List Char} (hp : p c = false) (hm : c ∈ s) :
    c ∈ s.dropWhile p := by
  rw [← List.singleton_infix_iff] at hm ⊢
  exact (infix_dropWhile hp).mpr hm

theorem mem_stripped {p : Char → Bool} {s : List Char} (hp : p c = false) (hm : c ∈ s) :
    c ∈ ((s.dropWhile p).reverse.dropWhile p).reverse := by
  rw [List.mem_reverse]
  apply mem_dropWhile hp
  rw [List.mem_reverse]
  exact mem_dropWhile hp hm

theorem digits16_mem (h : digits16 s = true) :
    ∀ c ∈ s, is_digit16 c = true ∨ c = '_' := by
  fun_induction digits16 s with
  | case1 => cases h
  | case2 c =>
    intro d hd
    rw [List.mem_singleton.mp hd]
    exact .inl h
  | case3 c s ih =>
    obtain ⟨hc, hs⟩ := Bool.and_eq_true_iff.mp h
    intro d hd
    rcases List.mem_cons.mp hd with rfl | hd
    · exact .inl hc
    · rcases List.mem_cons.mp hd with rfl | hd
      · exact .inr rfl
      · exact ih hs d hd
  | case4 c s _ _ ih =>
    obtain ⟨hc, hs⟩ := Bool.and_eq_true_iff.mp h
    intro d hd
    rcases List.mem_cons.mp hd with rfl | hd
    · exact .inl hc
    · exact ih hs d hd

/-- The characters of an accepted uuid that are no digits and no white space. -/
def uuid_syntax : List Char := "urn:uuid:{}-+_xX".toList

/-- A character that no accepted uuid has. -/
structure Foreign (c : Char) : Prop where
  digit : is_digit16 c = false
  space : intSpace c = false
  punctuation : c ∉ uuid_syntax

theorem Foreign.mem_tail (h : Foreign c) (hd : is_digit16 d = true ∨ d ∈ uuid_syntax)
    (hm : c ∈ d :: s) : c ∈ s := by
  apply (List.mem_cons.mp hm).resolve_left
  rintro rfl
  rcases hd with hd | hd
  · exact Bool.false_ne_true (h.digit.symm.trans hd)
  · exact h.punctuation hd

theorem decimal_digit (h : decimal c = some n) : is_digit16 c = true := by
  rw [is_digit16, h, Option.isSome_some, Bool.or_true]

theorem Foreign.drop_sign (h : Foreign c) (hm : c ∈ s) : c ∈ ClawMux.drop_sign s := by
  rw [drop_sign.eq_def]
  split
  · exact h.mem_tail (.inr (by decide)) hm
  · exact h.mem_tail (.inr (by decide)) hm
  · exact hm

theorem Foreign.drop_base (h : Foreign c) (hm : c ∈ s) : c ∈ ClawMux.drop_base s := by
  rw [drop_base.eq_def]
  split
  · rename_i z x s
    split
    · rename_i hbase
      have hx : x ∈ uuid_syntax := by
        rcases hbase.2 with rfl | rfl
        · decide
        · decide
      have hs := h.mem_tail (.inr hx) (h.mem_tail (.inl (decimal_digit hbase.1)) hm)
      split
      · exact h.mem_tail (.inr (by decide)) hs
      · exact hs
    · exact hm
  · exact hm

theorem Foreign.no_int16 (hc : Foreign c) (h : is_int16 s = true) : c ∉ s := by
  intro hm
  have hstrip := mem_stripped hc.space hm
  rcases digits16_mem h c (hc.drop_base (hc.drop_sign hstrip)) with hd | rfl
  · exact Bool.false_ne_true (hc.digit.symm.trans hd)
  · exact hc.punctuation (by decide)

theorem Foreign.no_uuid (hc : Foreign c) (h : is_uuid hex = true) : c ∉ hex.toList := by
  intro hm
  have hnot : ∀ {word : List Char}, word ⊆ uuid_syntax → c ∉ word := fun hw hin =>
    hc.punctuation (hw hin)
  apply hc.no_int16 (Bool.and_eq_true_iff.mp h).2
  rw [uuid_digits, List.mem_filter]
  refine ⟨mem_stripped ?_ (mem_remove (hnot (by decide)) (mem_remove (hnot (by decide)) hm)), ?_⟩
  · exact decide_eq_false (hnot (by decide))
  · apply decide_eq_true
    rintro rfl
    exact hc.punctuation (by decide)

theorem foreign_slash : Foreign '/' := ⟨rfl, by decide, by decide⟩

theorem foreign_dot : Foreign '.' := ⟨rfl, by decide, by decide⟩

theorem foreign_nul : Foreign '\x00' := ⟨rfl, by decide, by decide⟩

/-- An accepted uuid is the name of one directory. -/
theorem is_uuid_no_slash (h : is_uuid hex = true) : '/' ∉ hex.toList :=
  foreign_slash.no_uuid h

theorem is_uuid_name (h : is_uuid hex = true) : Name hex where
  slash := is_uuid_no_slash h
  nonempty := by
    rintro rfl
    have hempty : is_uuid "" = false := rfl
    exact Bool.false_ne_true (hempty.symm.trans h)
  dot := by
    rintro rfl
    exact foreign_dot.no_uuid h (by decide)
  dots := by
    rintro rfl
    exact foreign_dot.no_uuid h (by decide)

theorem workspace_name : Name "workspace" := ⟨by decide, by decide, by decide, by decide⟩

/-- A text that names an entry of every directory, whose workspace lies inside it. -/
structure SafeComponent (uuid : String) : Prop where
  no_slash : '/' ∉ uuid.toList
  no_nul : '\x00' ∉ uuid.toList
  no_dot : '.' ∉ uuid.toList
  inside : ∀ base, Inside base (join (join base uuid) "workspace")

namespace InstanceProvisioner

theorem validate_ok (h : validate_provisioned_target t settings j url = .ok (uuid, target)) :
    is_uuid uuid = true ∧ j = .str uuid ∧ url = .str target := by
  cases j with
  | str text =>
    simp only [validate_provisioned_target] at h
    split at h
    · cases h
    · rename_i hu
      split at h
      · cases h
      · rename_i parsed hparsed
        obtain ⟨text', hurl, hmap⟩ := Option.bind_eq_some_iff.mp hparsed
        obtain ⟨_, -, he⟩ := Option.map_eq_some_iff.mp hmap
        cases he
        split at h
        · cases h
        · split at h
          · cases h
          · split at h
            · cases h
            · cases h
              cases url with
              | str text' =>
                cases hurl
                exact ⟨Bool.not_eq_false _ ▸ hu, rfl, rfl⟩
              | _ => cases hurl
  | _ => cases h

end InstanceProvisioner

/-- Every spelling that `uuid.UUID` takes is safe, whatever the directory of the instances. -/
theorem validated_uuid_safe {t : LibraryTables} {settings : ProvisioningSettings}
    {instance_uuid : String} {instance_url : Json} {target : String × String}
    (h : InstanceProvisioner.validate_provisioned_target t settings (.str instance_uuid)
      instance_url = .ok target) : SafeComponent instance_uuid := by
  obtain ⟨uuid, url⟩ := target
  obtain ⟨huuid, he, -⟩ := InstanceProvisioner.validate_ok h
  cases he
  exact {
    no_slash := is_uuid_no_slash huuid
    no_nul := foreign_nul.no_uuid huuid
    no_dot := foreign_dot.no_uuid huuid
    inside := fun _ => (is_uuid_name huuid).inside.join workspace_name }

/-- A prefix in braces, a sign, a base with a full-width zero, and underscores. -/
def braced_uuid : String := "\x7burn:uuid:+０X_3_0f2-aeff1111422283331234567\x7d\x7d"

theorem validated_uuid_safe_braced : SafeComponent braced_uuid := by
  have haccepted : (InstanceProvisioner.validate_provisioned_target {} {} (.str braced_uuid)
      (.str "ws://openclaw:18789/ws")).isOk = true := by decide +kernel
  cases h : InstanceProvisioner.validate_provisioned_target {} {} (.str braced_uuid)
      (.str "ws://openclaw:18789/ws") with
  | ok target => exact validated_uuid_safe h
  | error e =>
    rw [h] at haccepted
    cases haccepted

end ClawMux
