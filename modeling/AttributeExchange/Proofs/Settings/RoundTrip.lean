import AttributeExchange.Proofs.Json.Value
import AttributeExchange.Proofs.Settings.Overlay
import AttributeExchange.Settings.Printer

/-!
# Settings that are written and read back

The text form has every field, so reading it back sets every field, and only a timeout can come back
changed: as the whole milliseconds of it that are written.
-/

namespace AttributeExchange.Settings

open AttributeExchange.Json (ObjectText objectText_membersText writtenMember)

/-! ## What is written -/

def written (settings : Settings) : List Setting :=
  [⟨.maxWaiting, settings.maxWaiting⟩,
    ⟨.timeout, settings.timeout.map fun timeout => (timeoutNumber timeout).toUInt64⟩,
    ⟨.verbose, settings.verbose⟩, ⟨.maxLength, settings.maxLength⟩,
    ⟨.maxKeys, settings.maxKeys⟩, ⟨.trailingComma, settings.trailingComma⟩]

theorem encoded_optionalNumber (n : Option UInt64) :
    encoded (optionalNumber (n.map UInt64.toNat)).compactChars = numberText n := by
  cases n with
  | none => rfl
  | some n =>
      have hnonneg : ¬ (n.toNat : Int) < 0 := by omega
      rw [Option.map_some, optionalNumber, Json.compactChars, Json.integerText, if_neg hnonneg,
        Int.natAbs_natCast, Json.encoded_toDigits]
      rfl

theorem encoded_bool (flag : Bool) : encoded (Json.bool flag).compactChars = flagText flag := by
  cases flag <;> rfl

theorem toNat_timeoutNumber (timeout : Duration) :
    (timeoutNumber timeout).toUInt64.toNat = timeoutNumber timeout :=
  UInt64.toNat_ofNat_of_lt' (Nat.mod_lt _ (by decide))

/-- Every member of the text form sets its field to what is written. -/
theorem sets_written (settings : Settings) :
    List.Forall₂ Sets
      (Field.all.map fun field => writtenMember (field.name, settings.value field))
      (settings.written.map some) := by
  have hmember : ∀ setting : Setting,
      encoded (settings.value setting.field).compactChars = setting.text →
      Sets (writtenMember (setting.field.name, settings.value setting.field)) (some setting) :=
    fun setting htext => .known setting (Json.StringLiteral.spells_escaped _) htext
  have htimeout : settings.timeout.map timeoutNumber =
      (settings.timeout.map fun timeout => (timeoutNumber timeout).toUInt64).map UInt64.toNat := by
    rw [Option.map_map]
    exact congrArg (settings.timeout.map ·)
      (funext fun timeout => (toNat_timeoutNumber timeout).symm)
  have hmillis : encoded (settings.value .timeout).compactChars =
      numberText (settings.timeout.map fun timeout => (timeoutNumber timeout).toUInt64) := by
    rw [value, htimeout, encoded_optionalNumber]
  have hfields : ∀ setting ∈ settings.written,
      encoded (settings.value setting.field).compactChars = setting.text := by
    simp only [written, List.forall_mem_cons, List.not_mem_nil, false_implies, implies_true,
      and_true]
    exact ⟨encoded_optionalNumber _, hmillis, encoded_bool _, encoded_optionalNumber _,
      encoded_optionalNumber _, encoded_bool _⟩
  have hall : Field.all.map (fun field => writtenMember (field.name, settings.value field)) =
      settings.written.map fun setting =>
        writtenMember (setting.field.name, settings.value setting.field) := rfl
  rw [hall, List.forall₂_map_left_iff, List.forall₂_map_right_iff, List.forall₂_same]
  exact fun setting hsetting => hmember setting (hfields setting hsetting)

theorem objectText_text (settings : Settings) :
    ObjectText (Field.all.map fun field => writtenMember (field.name, settings.value field))
      (utf8 settings.text) := by
  have hobject := objectText_membersText
    (Field.all.map fun field => (field.name, settings.value field))
  rw [List.map_map] at hobject
  rw [text, utf8_ofList]
  exact hobject

/-! ## What is read back -/

/-- The settings that the text form of settings holds. -/
def readBack (settings : Settings) : Settings :=
  { settings with
    timeout := settings.timeout.map fun timeout =>
      Duration.ofMillis (timeout.millis % UInt64.size) }

theorem overlaid_written (settings : Settings) :
    Setting.overlaid settings.written = settings.readBack := by
  have htimeout : (settings.timeout.map fun timeout => (timeoutNumber timeout).toUInt64).map
      (fun n => Duration.ofMillis n.toNat) = settings.readBack.timeout := by
    rw [Option.map_map]
    exact congrArg (settings.timeout.map ·) (funext fun timeout =>
      congrArg Duration.ofMillis (toNat_timeoutNumber timeout))
  calc Setting.overlaid settings.written
      = { settings with
          timeout := (settings.timeout.map fun timeout => (timeoutNumber timeout).toUInt64).map
            fun n => Duration.ofMillis n.toNat } := rfl
    _ = settings.readBack := by rw [htimeout]; rfl

theorem ofText_text (settings : Settings) : ofText settings.text = .ok settings.readBack := by
  have hread := ofText_objectText (objectText_text settings) (sets_written settings)
  rw [List.reduceOption, List.filterMap_map, Function.id_comp, List.filterMap_some] at hread
  rw [hread (by rw [show settings.written.map Setting.field = Field.all from rfl]; decide),
    overlaid_written]

theorem millis_ofMillis (n : Nat) : (Duration.ofMillis n).millis = n := by
  simp only [Duration.ofMillis, Duration.ofParts, Duration.millis, nanosPerSecond]
  omega

/-- That the timeout, if there is one, is a number of milliseconds of 64 bits. -/
def HasWholeMillis (settings : Settings) : Prop :=
  settings.timeout = none ∨ ∃ n < UInt64.size, settings.timeout = some (Duration.ofMillis n)

theorem readBack_eq_self_iff (settings : Settings) :
    settings.readBack = settings ↔ settings.HasWholeMillis := by
  constructor
  · intro hsame
    have htimeout := congrArg Settings.timeout hsame
    cases hown : settings.timeout with
    | none => exact .inl hown
    | some timeout =>
        rw [readBack, hown] at htimeout
        exact .inr ⟨timeout.millis % UInt64.size, Nat.mod_lt _ (by decide),
          hown.trans htimeout.symm⟩
  · rintro (hnone | ⟨n, hn, hsome⟩)
    · cases settings
      cases hnone
      rfl
    · cases settings
      cases hsome
      simp [readBack, millis_ofMillis, Nat.mod_eq_of_lt hn]

theorem hasWholeMillis_onto (overlay : Overlay) : (overlay.onto default).HasWholeMillis := by
  cases htimeout : overlay.timeout with
  | none =>
      refine .inr ⟨5000, by decide, ?_⟩
      simp only [Overlay.onto, htimeout]
      rfl
  | some millis =>
      cases millis with
      | none =>
          refine .inl ?_
          simp only [Overlay.onto, htimeout]
          rfl
      | some n =>
          refine .inr ⟨n.toNat, n.toNat_lt, ?_⟩
          simp only [Overlay.onto, htimeout]
          rfl

theorem hasWholeMillis_of_read {s : Bytes} {settings : Settings} (h : read s = .ok settings) :
    settings.HasWholeMillis := by
  obtain ⟨overlay, -, rfl⟩ := exists_of_map_eq_ok h
  exact hasWholeMillis_onto overlay

/-- Settings that are written are read back with the whole milliseconds of their timeout, of which
the lowest 64 bits count. So exactly the settings without a timeout or with one of whole
milliseconds of 64 bits come back as they were, and all settings that were read are among these. -/
theorem ofText_text_eq_readBack :
    (∀ settings : Settings, ofText settings.text = .ok { settings with
      timeout := settings.timeout.map fun timeout =>
        Duration.ofMillis (timeout.millis % UInt64.size) }) ∧
    (∀ settings : Settings, ofText settings.text = .ok settings ↔
      settings.timeout = none ∨
        ∃ n < UInt64.size, settings.timeout = some (Duration.ofMillis n)) ∧
    ∀ settings : Settings,
      ((∃ text, ofText text = .ok settings) ∨ ∃ reading, ofFile reading = .ok settings) →
        ofText settings.text = .ok settings := by
  have hsame : ∀ settings : Settings,
      ofText settings.text = .ok settings ↔ settings.HasWholeMillis := by
    intro settings
    rw [ofText_text, Except.ok.injEq]
    exact readBack_eq_self_iff settings
  refine ⟨ofText_text, hsame, ?_⟩
  rintro settings (⟨text, htext⟩ | ⟨reading, hreading⟩)
  · exact (hsame settings).mpr (hasWholeMillis_of_read (eq_ok_of_mapError_eq_ok htext))
  · cases reading with
    | unopened fault => cases hreading
    | unread fault => cases hreading
    | contents bytes =>
        exact (hsame settings).mpr (hasWholeMillis_of_read (eq_ok_of_mapError_eq_ok hreading))

theorem ofText_text_eq_readBack_null :
    ofText "\x7b\"request_timeout\":null\x7d" = .ok { default with timeout := none } ∧
      ofText (Settings.text { default with timeout := none }) =
        .ok { default with timeout := none } :=
  have hread : ofText "\x7b\"request_timeout\":null\x7d" =
      .ok { default with timeout := none } := rfl
  ⟨hread, ofText_text_eq_readBack.2.2 _ (.inl ⟨_, hread⟩)⟩

end AttributeExchange.Settings
