import BadmintonRobot.Can.Database

/-!
# The table `Can_Database`

The rows as the source lists them, over the objects they point to and the handlers
they name. `CAMERA_LENGTH` is 8 and a FIFO number is the index of its filter FIFO.
-/

namespace BadmintonRobot.Can

/-- The identifiers of `ID_NUMDEF`. -/
inductive IdNumdef where
  | mGCmdId | wStepperId | wGpsXId | wGpsYId | wGpsAngId | wGyroC1Id | wGyroC2Id | wEnc1C1Id
  | wEnc1C2Id | wEnc1RadId | wEnc1AngId | wEnc2C1Id | wEnc2C2Id | wEnc2RadId | wEnc2AngId
  | gMCmdId | sGpsXId | sGpsYId | sGpsAngId | sGyroC1Id | sGyroC2Id | sGyroRadId | sEnc1C1Id
  | sEnc1C2Id | sEnc1RadId | sEnc1AngId | sEnc1DisId | sEnc2C1Id | sEnc2C2Id | sEnc2RadId
  | sEnc2AngId | sEnc2DisId | wMotor1SpeedId | wMotor1AngleId | wMotor2SpeedId | wMotor2AngleId
  | wMotor3SpeedId | wMotor3AngleId | wMotor4SpeedId | wMotor4AngleId | wMotor5SpeedId
  | wMotor5AngleId | wMotor6SpeedId | wMotor6AngleId | wMotor7SpeedId | wMotor7AngleId
  | wMotor8SpeedId | wMotor8AngleId | wMotor9SpeedId | wMotor9AngleId | wMotor1OldId
  | sMotor1EncId | wMotor2OldId | sMotor2EncId | wMotor3OldId | sMotor3EncId | wMotor4OldId
  | sMotor4EncId | wMotor5OldId | sMotor5EncId | wMotor6OldId | sMotor6EncId | wMotor7OldId
  | sMotor7EncId | wMotor8OldId | sMotor8EncId | wPwmId | sSwitchId | wFlagSetId | rFlagSetId
  | sCamera1Id | sCamera2Id | sCamera3Id | sCamera4Id | sCamera5Id | wCamera1Id | wCamera2Id
  | wCamera3Id | wCamera4Id | wCamera5Id | wRelay64Id | wRelay1Id | wRelay2Id | wSonic1Id
  | sSonic1Id | wSonic2Id | sSonic2Id | sCam1Trans | sCam2Trans | sCam3Trans | sCam4Trans
  | sCam5Trans
deriving DecidableEq, Repr

/-- The number of an identifier on the bus. -/
def IdNumdef.value : IdNumdef → Nat
  | .mGCmdId => 0x00 | .wStepperId => 0x01 | .wGpsXId => 0x08 | .wGpsYId => 0x09
  | .wGpsAngId => 0x0a | .wGyroC1Id => 0x10 | .wGyroC2Id => 0x11 | .wEnc1C1Id => 0x18
  | .wEnc1C2Id => 0x19 | .wEnc1RadId => 0x1a | .wEnc1AngId => 0x1b | .wEnc2C1Id => 0x20
  | .wEnc2C2Id => 0x21 | .wEnc2RadId => 0x22 | .wEnc2AngId => 0x23 | .gMCmdId => 0x40
  | .sGpsXId => 0x48 | .sGpsYId => 0x49 | .sGpsAngId => 0x4a | .sGyroC1Id => 0x50
  | .sGyroC2Id => 0x51 | .sGyroRadId => 0x52 | .sEnc1C1Id => 0x58 | .sEnc1C2Id => 0x59
  | .sEnc1RadId => 0x5a | .sEnc1AngId => 0x5b | .sEnc1DisId => 0x5c | .sEnc2C1Id => 0x60
  | .sEnc2C2Id => 0x61 | .sEnc2RadId => 0x62 | .sEnc2AngId => 0x63 | .sEnc2DisId => 0x64
  | .wMotor1SpeedId => 0x80 | .wMotor1AngleId => 0x81 | .wMotor2SpeedId => 0x82
  | .wMotor2AngleId => 0x83 | .wMotor3SpeedId => 0x84 | .wMotor3AngleId => 0x85
  | .wMotor4SpeedId => 0x86 | .wMotor4AngleId => 0x87 | .wMotor5SpeedId => 0x88
  | .wMotor5AngleId => 0x89 | .wMotor6SpeedId => 0x8a | .wMotor6AngleId => 0x8b
  | .wMotor7SpeedId => 0x8c | .wMotor7AngleId => 0x8d | .wMotor8SpeedId => 0x8e
  | .wMotor8AngleId => 0x8f | .wMotor9SpeedId => 0x90 | .wMotor9AngleId => 0x91
  | .wMotor1OldId => 0xa0 | .sMotor1EncId => 0xa8 | .wMotor2OldId => 0xa1
  | .sMotor2EncId => 0xa9 | .wMotor3OldId => 0xa2 | .sMotor3EncId => 0xaa
  | .wMotor4OldId => 0xa3 | .sMotor4EncId => 0xab | .wMotor5OldId => 0xa4
  | .sMotor5EncId => 0xac | .wMotor6OldId => 0xa5 | .sMotor6EncId => 0xad
  | .wMotor7OldId => 0xa6 | .sMotor7EncId => 0xae | .wMotor8OldId => 0xa7
  | .sMotor8EncId => 0xaf | .wPwmId => 0xc4 | .sSwitchId => 0xc0 | .wFlagSetId => 0xc5
  | .rFlagSetId => 0xc6 | .sCamera1Id => 0xc8 | .sCamera2Id => 0xc9 | .sCamera3Id => 0xca
  | .sCamera4Id => 0xcb | .sCamera5Id => 0xcc | .wCamera1Id => 0xd8 | .wCamera2Id => 0xd9
  | .wCamera3Id => 0xda | .wCamera4Id => 0xdb | .wCamera5Id => 0xdc | .wRelay64Id => 0xd0
  | .wRelay1Id => 0xd1 | .wRelay2Id => 0xd2 | .wSonic1Id => 0xe0 | .sSonic1Id => 0xe1
  | .wSonic2Id => 0xe2 | .sSonic2Id => 0xe3 | .sCam1Trans => 0xe8 | .sCam2Trans => 0xe9
  | .sCam3Trans => 0xea | .sCam4Trans => 0xeb | .sCam5Trans => 0xec

/-- The objects that `Data_ptr` points to. -/
inductive Object where
  | mosiCmd | mosiGpsX | mosiGpsY | mosiGpsAng | mosiGyroC1 | mosiGyroC2 | mosiEnc1C1
  | mosiEnc1C2 | mosiEnc1Rad | mosiEnc1Ang | mosiEnc2C1 | mosiEnc2C2 | mosiEnc2Rad
  | mosiEnc2Ang | misoCmd | misoGpsX | misoGpsY | misoGpsAng | misoGyroC1 | misoGyroC2
  | misoGyroRad | misoEnc1C1 | misoEnc1C2 | misoEnc1Rad | misoEnc1Ang | misoEnc1Dis
  | misoEnc2C1 | misoEnc2C2 | misoEnc2Rad | misoEnc2Ang | misoEnc2Dis | mosiPwm | mosiStepper
  | flagSet | flagSet1 | misoSwitch | mosiRelay1Data | mosiRelay2Data | mosiSonic1Cmd
  | misoSonic1Dat | mosiSonic2Cmd | misoSonic2Dat | mosiMotor1Speed | mosiMotor1Angle
  | mosiMotor2Speed | mosiMotor2Angle | mosiMotor3Speed | mosiMotor3Angle | mosiMotor4Speed
  | mosiMotor4Angle | mosiMotor5Speed | mosiMotor5Angle | mosiMotor6Speed | mosiMotor6Angle
  | mosiMotor7Speed | mosiMotor7Angle | mosiMotor8Speed | mosiMotor8Angle | mosiMotor9Speed
  | mosiMotor9Angle | mosiMotor1Old | mosiMotor2Old | mosiMotor3Old | mosiMotor4Old
  | mosiMotor5Old | mosiMotor6Old | mosiMotor7Old | mosiMotor8Old | misoM1Enc | misoM2Enc
  | misoM3Enc | misoM4Enc | misoM5Enc | misoM6Enc | misoM7Enc | misoM8Enc | cameraData1
  | cameraData2 | cameraData3 | cameraData4 | cameraData5 | mosiCamera1 | mosiCamera2
  | mosiCamera3 | mosiCamera4 | mosiCamera5 | misoCam1Trans | misoCam2Trans | misoCam3Trans
  | misoCam4Trans | misoCam5Trans
deriving DecidableEq, Repr

/-- The handlers that `MenuFunc` names. -/
inductive Handler where
  | gMCmdFunc | sGpsXFunc | sGpsYFunc | sGpsAngFunc | sGyroC1Func | sGyroC2Func | sGyroRadFunc
  | sEnc1C1Func | sEnc1C2Func | sEnc1RadFunc | sEnc1AngFunc | sEnc1DisFunc | sEnc2C1Func
  | sEnc2C2Func | sEnc2RadFunc | sEnc2AngFunc | sEnc2DisFunc | rFlagSetFunc | sSwitchFunc
  | sSonic1Func | sSonic2Func | sMotor1EncFunc | sMotor2EncFunc | sMotor3EncFunc
  | sMotor4EncFunc | sMotor5EncFunc | sMotor6EncFunc | sMotor7EncFunc | sMotor8EncFunc
  | sCamera1Func | sCamera2Func | sCamera3Func | sCamera4Func | sCamera5Func | sCam1TransFunc
  | sCam2TransFunc | sCam3TransFunc | sCam4TransFunc | sCam5TransFunc
deriving DecidableEq, Repr

/-- A row of the database, in the order of the columns of the source. -/
abbrev row (dataType : DataType) (id : IdNumdef) (dataPtr : Object) (dataLength : Nat)
    (menuFunc : Option Handler) (channel fifoNum : Nat) : CanData Object Handler :=
  ⟨dataType, id.value, dataPtr, dataLength, menuFunc, channel, fifoNum⟩

/-- The rows of `Can_Database`. -/
def canDatabase : List (CanData Object Handler) :=
  [ row .writeOnly .mGCmdId .mosiCmd 1 none 1 0,
    row .writeOnly .wGpsXId .mosiGpsX 8 none 1 1,
    row .writeOnly .wGpsYId .mosiGpsY 8 none 1 0,
    row .writeOnly .wGpsAngId .mosiGpsAng 8 none 1 1,
    row .writeOnly .wGyroC1Id .mosiGyroC1 8 none 1 0,
    row .writeOnly .wGyroC2Id .mosiGyroC2 8 none 1 1,
    row .writeOnly .wEnc1C1Id .mosiEnc1C1 8 none 1 0,
    row .writeOnly .wEnc1C2Id .mosiEnc1C2 8 none 1 1,
    row .writeOnly .wEnc1RadId .mosiEnc1Rad 8 none 1 0,
    row .writeOnly .wEnc1AngId .mosiEnc1Ang 8 none 1 1,
    row .writeOnly .wEnc2C1Id .mosiEnc2C1 8 none 1 0,
    row .writeOnly .wEnc2C2Id .mosiEnc2C2 8 none 1 1,
    row .writeOnly .wEnc2RadId .mosiEnc2Rad 8 none 1 0,
    row .writeOnly .wEnc2AngId .mosiEnc2Ang 8 none 1 1,
    row .readOnly .gMCmdId .misoCmd 1 (some .gMCmdFunc) 1 0,
    row .readOnly .sGpsXId .misoGpsX 8 (some .sGpsXFunc) 1 1,
    row .readOnly .sGpsYId .misoGpsY 8 (some .sGpsYFunc) 1 0,
    row .readOnly .sGpsAngId .misoGpsAng 8 (some .sGpsAngFunc) 1 1,
    row .readOnly .sGyroC1Id .misoGyroC1 8 (some .sGyroC1Func) 1 0,
    row .readOnly .sGyroC2Id .misoGyroC2 8 (some .sGyroC2Func) 1 1,
    row .readOnly .sGyroRadId .misoGyroRad 8 (some .sGyroRadFunc) 1 0,
    row .readOnly .sEnc1C1Id .misoEnc1C1 8 (some .sEnc1C1Func) 1 1,
    row .readOnly .sEnc1C2Id .misoEnc1C2 8 (some .sEnc1C2Func) 1 0,
    row .readOnly .sEnc1RadId .misoEnc1Rad 8 (some .sEnc1RadFunc) 1 1,
    row .readOnly .sEnc1AngId .misoEnc1Ang 8 (some .sEnc1AngFunc) 1 0,
    row .readOnly .sEnc1DisId .misoEnc1Dis 8 (some .sEnc1DisFunc) 1 1,
    row .readOnly .sEnc2C1Id .misoEnc2C1 8 (some .sEnc2C1Func) 1 0,
    row .readOnly .sEnc2C2Id .misoEnc2C2 8 (some .sEnc2C2Func) 1 1,
    row .readOnly .sEnc2RadId .misoEnc2Rad 8 (some .sEnc2RadFunc) 1 0,
    row .readOnly .sEnc2AngId .misoEnc2Ang 8 (some .sEnc2AngFunc) 1 1,
    row .readOnly .sEnc2DisId .misoEnc2Dis 8 (some .sEnc2DisFunc) 1 0,
    row .writeOnly .wPwmId .mosiPwm 8 none 1 0,
    row .writeOnly .wStepperId .mosiStepper 8 none 1 1,
    row .writeOnly .wFlagSetId .flagSet 2 none 2 0,
    row .readOnly .rFlagSetId .flagSet1 2 (some .rFlagSetFunc) 2 0,
    row .readOnly .sSwitchId .misoSwitch 2 (some .sSwitchFunc) 2 1,
    row .readOnly .wRelay1Id .mosiRelay1Data 1 none 2 0,
    row .readOnly .wRelay2Id .mosiRelay2Data 1 none 2 1,
    row .writeOnly .wSonic1Id .mosiSonic1Cmd 1 none 2 0,
    row .readOnly .sSonic1Id .misoSonic1Dat 3 (some .sSonic1Func) 2 1,
    row .writeOnly .wSonic2Id .mosiSonic2Cmd 1 none 2 1,
    row .readOnly .sSonic2Id .misoSonic2Dat 3 (some .sSonic2Func) 2 0,
    row .writeOnly .wMotor1SpeedId .mosiMotor1Speed 4 none 2 1,
    row .writeOnly .wMotor1AngleId .mosiMotor1Angle 4 none 2 0,
    row .writeOnly .wMotor2SpeedId .mosiMotor2Speed 4 none 2 1,
    row .writeOnly .wMotor2AngleId .mosiMotor2Angle 4 none 2 0,
    row .writeOnly .wMotor3SpeedId .mosiMotor3Speed 4 none 2 1,
    row .writeOnly .wMotor3AngleId .mosiMotor3Angle 4 none 2 0,
    row .writeOnly .wMotor4SpeedId .mosiMotor4Speed 4 none 2 1,
    row .writeOnly .wMotor4AngleId .mosiMotor4Angle 4 none 2 0,
    row .writeOnly .wMotor5SpeedId .mosiMotor5Speed 4 none 2 1,
    row .writeOnly .wMotor5AngleId .mosiMotor5Angle 4 none 2 0,
    row .writeOnly .wMotor6SpeedId .mosiMotor6Speed 4 none 2 1,
    row .writeOnly .wMotor6AngleId .mosiMotor6Angle 4 none 2 0,
    row .writeOnly .wMotor7SpeedId .mosiMotor7Speed 4 none 2 1,
    row .writeOnly .wMotor7AngleId .mosiMotor7Angle 4 none 2 0,
    row .writeOnly .wMotor8SpeedId .mosiMotor8Speed 4 none 2 1,
    row .writeOnly .wMotor8AngleId .mosiMotor8Angle 4 none 2 0,
    row .writeOnly .wMotor9SpeedId .mosiMotor9Speed 4 none 2 1,
    row .writeOnly .wMotor9AngleId .mosiMotor9Angle 4 none 2 0,
    row .writeOnly .wMotor1OldId .mosiMotor1Old 8 none 2 1,
    row .writeOnly .wMotor2OldId .mosiMotor2Old 8 none 2 0,
    row .writeOnly .wMotor3OldId .mosiMotor3Old 8 none 2 1,
    row .writeOnly .wMotor4OldId .mosiMotor4Old 8 none 2 0,
    row .writeOnly .wMotor5OldId .mosiMotor5Old 8 none 2 1,
    row .writeOnly .wMotor6OldId .mosiMotor6Old 8 none 2 0,
    row .writeOnly .wMotor7OldId .mosiMotor7Old 8 none 2 1,
    row .writeOnly .wMotor8OldId .mosiMotor8Old 8 none 2 0,
    row .readOnly .sMotor1EncId .misoM1Enc 7 (some .sMotor1EncFunc) 2 1,
    row .readOnly .sMotor2EncId .misoM2Enc 7 (some .sMotor2EncFunc) 2 0,
    row .readOnly .sMotor3EncId .misoM3Enc 7 (some .sMotor3EncFunc) 1 1,
    row .readOnly .sMotor4EncId .misoM4Enc 7 (some .sMotor4EncFunc) 2 0,
    row .readOnly .sMotor5EncId .misoM5Enc 7 (some .sMotor5EncFunc) 2 1,
    row .readOnly .sMotor6EncId .misoM6Enc 7 (some .sMotor6EncFunc) 2 0,
    row .readOnly .sMotor7EncId .misoM7Enc 7 (some .sMotor7EncFunc) 2 1,
    row .readOnly .sMotor8EncId .misoM8Enc 7 (some .sMotor8EncFunc) 2 0,
    row .readOnly .sCamera1Id .cameraData1 8 (some .sCamera1Func) 1 1,
    row .readOnly .sCamera2Id .cameraData2 8 (some .sCamera2Func) 1 0,
    row .readOnly .sCamera3Id .cameraData3 8 (some .sCamera3Func) 1 1,
    row .readOnly .sCamera4Id .cameraData4 8 (some .sCamera4Func) 2 0,
    row .readOnly .sCamera5Id .cameraData5 8 (some .sCamera5Func) 2 1,
    row .writeOnly .wCamera1Id .mosiCamera1 8 none 1 0,
    row .writeOnly .wCamera2Id .mosiCamera2 8 none 1 1,
    row .writeOnly .wCamera3Id .mosiCamera3 8 none 1 0,
    row .writeOnly .wCamera4Id .mosiCamera4 8 none 2 1,
    row .writeOnly .wCamera5Id .mosiCamera5 8 none 2 0,
    row .readOnly .sCam1Trans .misoCam1Trans 8 (some .sCam1TransFunc) 1 0,
    row .readOnly .sCam2Trans .misoCam2Trans 8 (some .sCam2TransFunc) 1 1,
    row .readOnly .sCam3Trans .misoCam3Trans 8 (some .sCam3TransFunc) 1 0,
    row .readOnly .sCam4Trans .misoCam4Trans 8 (some .sCam4TransFunc) 2 1,
    row .readOnly .sCam5Trans .misoCam5Trans 8 (some .sCam5TransFunc) 2 0 ]

/-- The table meets the conditions of its initialisation. -/
theorem canDatabase_wellFormed : WellFormed canDatabase :=
  ⟨by decide, by decide, by decide +kernel⟩

section Lookup

variable (beyond : Nat → CanData Object Handler)

/-- The row `Can_Database[HASH_TABLE[ID_NUM]]`. -/
def hashedEntry (idNum : Nat) : CanData Object Handler :=
  entryAt canDatabase beyond (hashTableInit canDatabase idNum).toNat

theorem hashedEntry_of_mem {entry : CanData Object Handler} (member : entry ∈ canDatabase) :
    hashedEntry beyond entry.dataID = entry := by
  obtain ⟨index, at_index⟩ := List.mem_iff_getElem?.mp member
  rw [hashedEntry, canDatabase_wellFormed.hash_present at_index, entryAt, at_index]
  rfl

end Lookup

end BadmintonRobot.Can
