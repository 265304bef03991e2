/-
The schemas of `Messaging.proto` are lawful and check their strings.

Each schema is given the number of nesting levels its messages need, at most
six of the parser's hundred: parsing a message from one of its encodings gives
the message back, and a parse succeeds exactly on well-formed bytes.
-/
import Click.Messaging
import Click.Proto.Checks

open Proto

namespace Click.Protobuf

/-! ### Field types -/

section Fields

variable {n : ℕ} (hn : 1 ≤ n ∧ n < 2 ^ 28) (h : ℕ)

include hn

theorem enumField_lawful : (enumField n).Lawful h :=
  (FieldCodec.singular_lawful Scalar.int32_lawful.toValue hn).mono (Nat.zero_le h)

theorem doubleField_lawful : (doubleField n).Lawful h :=
  (FieldCodec.singular_lawful Scalar.double_lawful.toValue hn).mono (Nat.zero_le h)

theorem doublesField_lawful : (doublesField n).Lawful h :=
  (FieldCodec.packed_lawful Scalar.double_lawful hn).mono (Nat.zero_le h)

theorem enumsField_lawful : (enumsField n).Lawful h :=
  (FieldCodec.packed_lawful Scalar.int32_lawful hn).mono (Nat.zero_le h)

theorem stringsField_lawful : (stringsField n).Lawful h :=
  (FieldCodec.repeated_lawful ValueCodec.string_lawful hn).mono (Nat.zero_le h)

end Fields

/-! ### Messages without a map -/

theorem Message.schema_lawful : Message.schema.Lawful 0 where
  field := by
    simp only [Message.schema, List.forall_mem_cons]
    exact ⟨enumField_lawful (by norm_num) 0, enumField_lawful (by norm_num) 0, by simp⟩
  apart := by
    simp only [Message.schema, List.pairwise_cons, List.forall_mem_cons]
    and_intros <;> first | exact ⟨by decide, fun _ _ => rfl, fun _ _ => rfl⟩ | simp
  init := by
    simp only [Message.schema, List.forall_mem_cons]
    exact ⟨rfl, rfl, by simp⟩
  rebuild _ := rfl

theorem HandshakeInitMessage.schema_lawful : HandshakeInitMessage.schema.Lawful 0 where
  field := by
    simp only [HandshakeInitMessage.schema, List.forall_mem_cons]
    exact ⟨enumField_lawful (by norm_num) 0, enumField_lawful (by norm_num) 0, by simp⟩
  apart := by
    simp only [HandshakeInitMessage.schema, List.pairwise_cons, List.forall_mem_cons]
    and_intros <;> first | exact ⟨by decide, fun _ _ => rfl, fun _ _ => rfl⟩ | simp
  init := by
    simp only [HandshakeInitMessage.schema, List.forall_mem_cons]
    exact ⟨rfl, rfl, by simp⟩
  rebuild _ := rfl

theorem SensorRequestMessage.schema_lawful : SensorRequestMessage.schema.Lawful 0 :=
  Schema.lawful_single (enumField_lawful (by norm_num) 0) rfl fun _ => rfl

theorem ResetMessage.schema_lawful : ResetMessage.schema.Lawful 0 :=
  Schema.lawful_single (enumField_lawful (by norm_num) 0) rfl fun _ => rfl

theorem ErrorMessage.schema_lawful : ErrorMessage.schema.Lawful 0 where
  field := by
    simp only [ErrorMessage.schema, List.forall_mem_cons]
    exact ⟨enumField_lawful (by norm_num) 0,
      enumField_lawful (by norm_num) 0,
      FieldCodec.singular_lawful ValueCodec.string_lawful (by norm_num),
      by simp⟩
  apart := by
    simp only [ErrorMessage.schema, List.pairwise_cons, List.forall_mem_cons]
    and_intros <;> first | exact ⟨by decide, fun _ _ => rfl, fun _ _ => rfl⟩ | simp
  init := by
    simp only [ErrorMessage.schema, List.forall_mem_cons]
    exact ⟨rfl, rfl, rfl, by simp⟩
  rebuild _ := rfl

/-! ### HandshakeMessage -/

theorem HandshakeMessage.Sensors.schema_lawful : HandshakeMessage.Sensors.schema.Lawful 0 :=
  Schema.lawful_single (enumsField_lawful (by norm_num) 0) rfl fun _ => rfl

theorem HandshakeMessage.Object.schema_lawful : HandshakeMessage.Object.schema.Lawful 2 where
  field := by
    simp only [HandshakeMessage.Object.schema, List.forall_mem_cons]
    exact ⟨stringsField_lawful (by norm_num) 2,
      enumsField_lawful (by norm_num) 2,
      (FieldCodec.map_lawful Scalar.int32_lawful.toValue (by norm_num)).mono (by norm_num),
      FieldCodec.map_lawful (ValueCodec.message_lawful HandshakeMessage.Sensors.schema_lawful)
        (by norm_num),
      enumsField_lawful (by norm_num) 2,
      stringsField_lawful (by norm_num) 2,
      enumsField_lawful (by norm_num) 2,
      by simp⟩
  apart := by
    simp only [HandshakeMessage.Object.schema, List.pairwise_cons, List.forall_mem_cons]
    and_intros <;> first | exact ⟨by decide, fun _ _ => rfl, fun _ _ => rfl⟩ | simp
  init := by
    simp only [HandshakeMessage.Object.schema, List.forall_mem_cons]
    exact ⟨rfl, rfl, rfl, rfl, rfl, rfl, rfl, by simp⟩
  rebuild _ := rfl

theorem HandshakeMessage.SimulationSettings.schema_lawful :
    HandshakeMessage.SimulationSettings.schema.Lawful 0 :=
  Schema.lawful_single (doubleField_lawful (by norm_num) 0) rfl fun _ => rfl

theorem HandshakeMessage.schema_lawful : HandshakeMessage.schema.Lawful 4 where
  field := by
    simp only [HandshakeMessage.schema, List.forall_mem_cons]
    exact ⟨enumField_lawful (by norm_num) 4,
      enumField_lawful (by norm_num) 4,
      enumField_lawful (by norm_num) 4,
      FieldCodec.map_lawful (ValueCodec.message_lawful HandshakeMessage.Object.schema_lawful)
        (by norm_num),
      (FieldCodec.optional_lawful
        (ValueCodec.message_lawful HandshakeMessage.SimulationSettings.schema_lawful)
        (by norm_num)).mono (by norm_num),
      by simp⟩
  apart := by
    simp only [HandshakeMessage.schema, List.pairwise_cons, List.forall_mem_cons]
    and_intros <;> first | exact ⟨by decide, fun _ _ => rfl, fun _ _ => rfl⟩ | simp
  init := by
    simp only [HandshakeMessage.schema, List.forall_mem_cons]
    exact ⟨rfl, rfl, rfl, rfl, rfl, by simp⟩
  rebuild _ := rfl

/-! ### ControlMessage -/

theorem ControlMessage.Object.schema_lawful : ControlMessage.Object.schema.Lawful 1 where
  field := by
    simp only [ControlMessage.Object.schema, List.forall_mem_cons]
    exact ⟨doublesField_lawful (by norm_num) 1,
      doublesField_lawful (by norm_num) 1,
      doublesField_lawful (by norm_num) 1,
      FieldCodec.map_lawful Scalar.bool_lawful.toValue (by norm_num),
      doublesField_lawful (by norm_num) 1,
      by simp⟩
  apart := by
    simp only [ControlMessage.Object.schema, List.pairwise_cons, List.forall_mem_cons]
    and_intros <;> first | exact ⟨by decide, fun _ _ => rfl, fun _ _ => rfl⟩ | simp
  init := by
    simp only [ControlMessage.Object.schema, List.forall_mem_cons]
    exact ⟨rfl, rfl, rfl, rfl, rfl, by simp⟩
  rebuild _ := rfl

theorem ControlMessage.schema_lawful : ControlMessage.schema.Lawful 3 where
  field := by
    simp only [ControlMessage.schema, List.forall_mem_cons]
    exact ⟨enumField_lawful (by norm_num) 3,
      FieldCodec.map_lawful (ValueCodec.message_lawful ControlMessage.Object.schema_lawful)
        (by norm_num),
      by simp⟩
  apart := by
    simp only [ControlMessage.schema, List.pairwise_cons, List.forall_mem_cons]
    and_intros <;> first | exact ⟨by decide, fun _ _ => rfl, fun _ _ => rfl⟩ | simp
  init := by
    simp only [ControlMessage.schema, List.forall_mem_cons]
    exact ⟨rfl, rfl, by simp⟩
  rebuild _ := rfl

/-! ### SensorMessage -/

theorem SensorMessage.Vec3.schema_lawful : SensorMessage.Vec3.schema.Lawful 0 :=
  Schema.lawful_single (doublesField_lawful (by norm_num) 0) rfl fun _ => rfl

/-- Every case of the oneof, and each value in exactly one of them. -/
theorem SensorMessage.Sensor.alts_lawful :
    Alt.Lawful SensorMessage.Sensor.alts SensorMessage.Sensor.Value.case 1 where
  value := by
    have hd := Scalar.double_lawful.toValue.mono (Nat.zero_le 1)
    have hb := Scalar.bool_lawful.toValue.mono (Nat.zero_le 1)
    have hv := ValueCodec.message_lawful SensorMessage.Vec3.schema_lawful
    simp only [SensorMessage.Sensor.alts, List.forall_mem_cons]
    exact ⟨hd, hd, hd, hv, hv, hb, hv, hv, hv, hv, hv, hv, hd, by simp⟩
  nums_valid := by decide
  nodup := by decide
  cover v := by cases v <;> simp [SensorMessage.Sensor.alts]
  inj_of_proj := by
    -- one case of the oneof against every value
    simp only [SensorMessage.Sensor.alts, List.forall_mem_cons]
    and_intros
    all_goals
      intro v x hx
      cases v <;> simp_all [SensorMessage.Sensor.Value.case]

theorem SensorMessage.Sensor.schema_lawful : SensorMessage.Sensor.schema.Lawful 1 :=
  Schema.lawful_single (FieldCodec.oneof_lawful SensorMessage.Sensor.alts_lawful) rfl fun _ => rfl

theorem SensorMessage.Sensors.schema_lawful : SensorMessage.Sensors.schema.Lawful 2 :=
  have hsensor := ValueCodec.message_lawful SensorMessage.Sensor.schema_lawful
  Schema.lawful_single (FieldCodec.repeated_lawful hsensor (by norm_num)) rfl fun _ => rfl

theorem SensorMessage.Object.schema_lawful : SensorMessage.Object.schema.Lawful 4 where
  field := by
    simp only [SensorMessage.Object.schema, List.forall_mem_cons]
    exact ⟨doublesField_lawful (by norm_num) 4,
      doublesField_lawful (by norm_num) 4,
      doublesField_lawful (by norm_num) 4,
      (FieldCodec.repeated_lawful (ValueCodec.message_lawful SensorMessage.Sensor.schema_lawful)
        (by norm_num)).mono (by norm_num),
      (FieldCodec.repeated_lawful (ValueCodec.message_lawful SensorMessage.Vec3.schema_lawful)
        (by norm_num)).mono (by norm_num),
      FieldCodec.map_lawful (ValueCodec.message_lawful SensorMessage.Sensors.schema_lawful)
        (by norm_num),
      by simp⟩
  apart := by
    simp only [SensorMessage.Object.schema, List.pairwise_cons, List.forall_mem_cons]
    and_intros <;> first | exact ⟨by decide, fun _ _ => rfl, fun _ _ => rfl⟩ | simp
  init := by
    simp only [SensorMessage.Object.schema, List.forall_mem_cons]
    exact ⟨rfl, rfl, rfl, rfl, rfl, rfl, by simp⟩
  rebuild _ := rfl

theorem SensorMessage.SimulationVariables.schema_lawful :
    SensorMessage.SimulationVariables.schema.Lawful 0 :=
  Schema.lawful_single (doubleField_lawful (by norm_num) 0) rfl fun _ => rfl

theorem SensorMessage.schema_lawful : SensorMessage.schema.Lawful 6 where
  field := by
    simp only [SensorMessage.schema, List.forall_mem_cons]
    exact ⟨enumField_lawful (by norm_num) 6,
      FieldCodec.map_lawful (ValueCodec.message_lawful SensorMessage.Object.schema_lawful)
        (by norm_num),
      (FieldCodec.optional_lawful
        (ValueCodec.message_lawful SensorMessage.SimulationVariables.schema_lawful)
        (by norm_num)).mono (by norm_num),
      by simp⟩
  apart := by
    simp only [SensorMessage.schema, List.pairwise_cons, List.forall_mem_cons]
    and_intros <;> first | exact ⟨by decide, fun _ _ => rfl, fun _ _ => rfl⟩ | simp
  init := by
    simp only [SensorMessage.schema, List.forall_mem_cons]
    exact ⟨rfl, rfl, rfl, by simp⟩
  rebuild _ := rfl

/-! ### Strings -/

section Checks

variable {n : ℕ}

theorem enumField_checks : (enumField n).Checks :=
  FieldCodec.singular_checks (Scalar.toValue_checks _)

theorem doubleField_checks : (doubleField n).Checks :=
  FieldCodec.singular_checks (Scalar.toValue_checks _)

theorem stringsField_checks : (stringsField n).Checks :=
  FieldCodec.repeated_checks ValueCodec.string_checks

end Checks

theorem HandshakeMessage.schema_checks : HandshakeMessage.schema.Checks := by
  have hsensors : HandshakeMessage.Sensors.schema.Checks :=
    List.forall_mem_singleton.mpr (FieldCodec.packed_checks _)
  have hobject : HandshakeMessage.Object.schema.Checks := by
    simp only [Schema.Checks, HandshakeMessage.Object.schema, List.forall_mem_cons]
    exact ⟨stringsField_checks, FieldCodec.packed_checks _,
      FieldCodec.map_checks Scalar.int32_lawful.toValue (Scalar.toValue_checks _),
      FieldCodec.map_checks (ValueCodec.message_lawful HandshakeMessage.Sensors.schema_lawful)
        (ValueCodec.message_checks HandshakeMessage.Sensors.schema_lawful hsensors),
      FieldCodec.packed_checks _, stringsField_checks, FieldCodec.packed_checks _, by simp⟩
  have hsettings : HandshakeMessage.SimulationSettings.schema.Checks :=
    List.forall_mem_singleton.mpr doubleField_checks
  simp only [Schema.Checks, HandshakeMessage.schema, List.forall_mem_cons]
  exact ⟨enumField_checks, enumField_checks, enumField_checks,
    FieldCodec.map_checks (ValueCodec.message_lawful HandshakeMessage.Object.schema_lawful)
      (ValueCodec.message_checks HandshakeMessage.Object.schema_lawful hobject),
    FieldCodec.optional_checks
      (ValueCodec.message_checks HandshakeMessage.SimulationSettings.schema_lawful hsettings),
    by simp⟩

theorem ControlMessage.schema_checks : ControlMessage.schema.Checks := by
  have hobject : ControlMessage.Object.schema.Checks := by
    simp only [Schema.Checks, ControlMessage.Object.schema, List.forall_mem_cons]
    exact ⟨FieldCodec.packed_checks _, FieldCodec.packed_checks _, FieldCodec.packed_checks _,
      FieldCodec.map_checks Scalar.bool_lawful.toValue (Scalar.toValue_checks _),
      FieldCodec.packed_checks _, by simp⟩
  simp only [Schema.Checks, ControlMessage.schema, List.forall_mem_cons]
  exact ⟨enumField_checks,
    FieldCodec.map_checks (ValueCodec.message_lawful ControlMessage.Object.schema_lawful)
      (ValueCodec.message_checks ControlMessage.Object.schema_lawful hobject),
    by simp⟩

theorem SensorMessage.Vec3.schema_checks : SensorMessage.Vec3.schema.Checks :=
  List.forall_mem_singleton.mpr (FieldCodec.packed_checks _)

theorem SensorMessage.Sensor.schema_checks : SensorMessage.Sensor.schema.Checks := by
  have hvec := ValueCodec.message_checks SensorMessage.Vec3.schema_lawful
    SensorMessage.Vec3.schema_checks
  refine List.forall_mem_singleton.mpr
    (FieldCodec.oneof_checks SensorMessage.Sensor.alts_lawful ?_ ?_)
  · simp [SensorMessage.Sensor.alts]
  · have hd := Scalar.toValue_checks Scalar.double
    have hb := Scalar.toValue_checks Scalar.bool
    simp only [SensorMessage.Sensor.alts, List.forall_mem_cons]
    exact ⟨hd, hd, hd, hvec, hvec, hb, hvec, hvec, hvec, hvec, hvec, hvec, hd, by simp⟩

theorem SensorMessage.schema_checks : SensorMessage.schema.Checks := by
  have hsensor := ValueCodec.message_checks SensorMessage.Sensor.schema_lawful
    SensorMessage.Sensor.schema_checks
  have hvec := ValueCodec.message_checks SensorMessage.Vec3.schema_lawful
    SensorMessage.Vec3.schema_checks
  have hsensors : SensorMessage.Sensors.schema.Checks :=
    List.forall_mem_singleton.mpr (FieldCodec.repeated_checks hsensor)
  have hobject : SensorMessage.Object.schema.Checks := by
    simp only [Schema.Checks, SensorMessage.Object.schema, List.forall_mem_cons]
    exact ⟨FieldCodec.packed_checks _, FieldCodec.packed_checks _, FieldCodec.packed_checks _,
      FieldCodec.repeated_checks hsensor, FieldCodec.repeated_checks hvec,
      FieldCodec.map_checks (ValueCodec.message_lawful SensorMessage.Sensors.schema_lawful)
        (ValueCodec.message_checks SensorMessage.Sensors.schema_lawful hsensors),
      by simp⟩
  have hvariables : SensorMessage.SimulationVariables.schema.Checks :=
    List.forall_mem_singleton.mpr doubleField_checks
  simp only [Schema.Checks, SensorMessage.schema, List.forall_mem_cons]
  exact ⟨enumField_checks,
    FieldCodec.map_checks (ValueCodec.message_lawful SensorMessage.Object.schema_lawful)
      (ValueCodec.message_checks SensorMessage.Object.schema_lawful hobject),
    FieldCodec.optional_checks
      (ValueCodec.message_checks SensorMessage.SimulationVariables.schema_lawful hvariables),
    by simp⟩

end Click.Protobuf
