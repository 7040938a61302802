import NshSfc.Library.Layout

namespace NshSfc.NxActions

open Library

inductive NshAction
  | encapNsh
  | encapEther
  | decap
  | decNshTtl
deriving DecidableEq

inductive NxClass
  | setQueue | popQueue | regLoad | regLoad2 | note | setTunnel | setTunnel64 | regMove | resubmit
  | resubmitTable | outputReg | outputReg2 | learn | exit | decTtl | controller | controller2
  | decTtlCntIds | pushMpls | popMpls | setMplsTtl | decMplsTtl | setMplsLabel | setMplsTc
  | stackPush | stackPop | sample | sample2 | finTimeout | conjunction | multipath | bundle
  | bundleLoad | ct | ctClear | nat | outputTrunc
  | nsh (a : NshAction)
deriving DecidableEq

def NshAction.subtype : NshAction → ℕ
  | .encapNsh => 46
  | .encapEther => 46
  | .decap => 47
  | .decNshTtl => 48

def NxClass.subtype : NxClass → ℕ
  | .setQueue => 4
  | .popQueue => 5
  | .regLoad => 7
  | .regLoad2 => 33
  | .note => 8
  | .setTunnel => 2
  | .setTunnel64 => 9
  | .regMove => 6
  | .resubmit => 1
  | .resubmitTable => 14
  | .outputReg => 15
  | .outputReg2 => 32
  | .learn => 16
  | .exit => 17
  | .decTtl => 18
  | .controller => 20
  | .controller2 => 37
  | .decTtlCntIds => 21
  | .pushMpls => 23
  | .popMpls => 24
  | .setMplsTtl => 25
  | .decMplsTtl => 26
  | .setMplsLabel => 30
  | .setMplsTc => 31
  | .stackPush => 27
  | .stackPop => 28
  | .sample => 29
  | .sample2 => 38
  | .finTimeout => 19
  | .conjunction => 34
  | .multipath => 10
  | .bundle => 12
  | .bundleLoad => 13
  | .ct => 35
  | .ctClear => 43
  | .nat => 36
  | .outputTrunc => 39
  | .nsh a => a.subtype

def classes : List NxClass :=
  [.setQueue, .popQueue, .regLoad, .regLoad2, .note, .setTunnel, .setTunnel64, .regMove, .resubmit,
   .resubmitTable, .outputReg, .outputReg2, .learn, .exit, .decTtl, .controller, .controller2,
   .decTtlCntIds, .pushMpls, .popMpls, .setMplsTtl, .decMplsTtl, .setMplsLabel, .setMplsTc,
   .stackPush, .stackPop, .sample, .sample2, .finTimeout, .conjunction, .multipath, .bundle,
   .bundleLoad, .ct, .ctClear, .nat, .outputTrunc,
   .nsh .encapNsh, .nsh .encapEther, .nsh .decap, .nsh .decNshTtl]

/-- `NXAction.register`. What it asserts is that a number is not the dictionary itself. -/
def register (subtypes : List (ℕ × NxClass)) (subtypeCls : NxClass) : List (ℕ × NxClass) :=
  (subtypeCls.subtype, subtypeCls) :: subtypes

/-- The dictionary `_subtypes` after the loop over the classes; the first entry for a key counts. -/
def subtypes : List (ℕ × NxClass) := classes.foldl register []

def experimenterHeader (len : ℕ) : List UInt8 :=
  toBytes 2 0xffff ++ toBytes 2 len ++ toBytes 4 0x00002320

def NshAction.packed : NshAction → List UInt8
  | .encapEther => toBytes 2 0 ++ toBytes 4 0x00000000
  | .encapNsh => toBytes 2 0 ++ toBytes 4 0x0001894F
  | .decap => List.replicate 2 0
  | .decNshTtl => List.replicate 6 0

inductive ZoneSrc
  | none
  | number (n : ℕ)
  | field (name : String)
deriving DecidableEq

end NshSfc.NxActions
