import Mathlib.Algebra.Group.Nat.Defs
import Mathlib.Data.Nat.Basic

/-! # The drive record and mounting

The data `fat.h` keeps about a mounted drive, the cluster arithmetic of `fat.c`
on it, and `fat_read` of `fcach.c`: all sector caches of this build have size
zero, so a read always goes to the driver and lands in the one swap buffer of
the device.
-/

namespace PosFirmware.Fat

/-- `FS_OK`. -/
def FS_OK : Int := 0

/-- `FS_ERR_ARG`: a sector number or an argument out of range. -/
def FS_ERR_ARG : Int := -7

/-- `FAT_BAD_NO`: the cluster or sector number that stands for "none". -/
def FAT_BAD_NO : UInt32 := 0xFFFFFFFF

/-- The device numbers of `fsapi.h`. -/
inductive FsDevice where
  /-- `FS_UDISK` -/
  | udisk
  /-- `FS_FLASH` -/
  | flash
  /-- `FS_SDCARD` -/
  | sdcard
  /-- `FS_UDISK_A` -/
  | udiskA
deriving DecidableEq, Repr

/-- The bytes of a sector buffer. -/
abbrev SectorBuf := Nat → UInt8

/-- The little-endian 16-bit word at `i`. -/
def le16 (buf : SectorBuf) (i : Nat) : UInt16 :=
  UInt16.ofNat ((buf i).toNat + 256 * (buf (i + 1)).toNat)

/-- The little-endian 32-bit word at `i`. -/
def le32 (buf : SectorBuf) (i : Nat) : UInt32 :=
  UInt32.ofNat ((le16 buf i).toNat + 65536 * (le16 buf (i + 2)).toNat)

/-- `DRIVE_INFO`. -/
structure DriveInfo where
  /-- Whether the volume is FAT32; otherwise it is FAT16. -/
  bIsFAT32 : Bool
  /-- Whether the FAT sectors may be cached. -/
  bCacheEnable : Bool
  /-- Where the search for a free cluster starts. -/
  fatSectorOff : UInt32
  /-- Number of sectors of the disk. -/
  dwSectorTotal : UInt32
  /-- Bytes of a sector. -/
  wSectorSize : UInt16
  /-- Binary logarithm of the sector size. -/
  bSectorSizePower : Nat
  /-- Number of reserved sectors. -/
  wRsvSecCnt : UInt16
  /-- Number of hidden sectors. -/
  dwHiddSecCnt : UInt32
  /-- Sectors of a cluster. -/
  bSectorsPerCluster : UInt8
  /-- Binary logarithm of the sectors of a cluster. -/
  bClusterPower : Nat
  /-- Number of clusters of the entire disk. -/
  dwClusterTotal : UInt32
  /-- Bytes of a cluster. -/
  dwClusterSize : UInt32
  /-- First sector of the first FAT. -/
  dwFAT1StartSector : UInt32
  /-- First sector of the second FAT. -/
  dwFAT2StartSector : UInt32
  /-- Sectors of one FAT. -/
  dwFATSize : UInt32
  /-- Entries of the root directory. -/
  wRootEntCnt : UInt16
  /-- First sector of the root directory. -/
  dwFirstRootDirSector : UInt32
  /-- First cluster of the root directory. -/
  dwRootCluster : UInt32
  /-- Sectors of the root directory. -/
  dwRootDirSectors : UInt32
  /-- First sector of cluster two. -/
  dwCluster2StartSector : UInt32
  /-- First sector of the data region. -/
  dwFirstDataSector : UInt32
  /-- Sectors of the data region. -/
  dwDataSectors : UInt32
  /-- Clusters of the data region. -/
  dwDataClusters : UInt32

/-! ## Powers of two -/

/-- The loop of `get_power`: the first `p` from the given one with `value <= 1 << p`.
The callers pass 8-bit and 16-bit values, so the loop ends long before the
thirty-two rounds it is given. -/
def powerLoop (value : Nat) : Nat → Nat → Nat
  | 0, p => p
  | rounds + 1, p => if 2 ^ p < value then powerLoop value rounds (p + 1) else p

/-- `get_power`: the binary logarithm of a power of two, and zero for every other value. -/
def getPower (value : UInt32) : Nat :=
  let p := powerLoop value.toNat 32 0
  if value.toNat ≠ 2 ^ p then 0 else p

theorem powerLoop_pow {k : Nat} : ∀ {rounds p : Nat}, p ≤ k → k ≤ p + rounds →
    powerLoop (2 ^ k) rounds p = k
  | 0, p, low, high => by
    have : p = k := by omega
    exact this
  | rounds + 1, p, low, high => by
    rw [powerLoop]
    rcases Nat.lt_or_eq_of_le low with below | rfl
    · rw [if_pos (Nat.pow_lt_pow_right (by omega) below)]
      exact powerLoop_pow (by omega) (by omega)
    · rw [if_neg (lt_irrefl _)]

/-- **`get_power` of a power of two.** -/
theorem getPower_pow {value : UInt32} {k : Nat} (power : value.toNat = 2 ^ k) :
    getPower value = k := by
  have small : k < 32 := by
    have := value.toNat_lt
    rw [power] at this
    exact (Nat.pow_lt_pow_iff_right (by omega)).mp this
  have stops : powerLoop value.toNat 32 0 = k := by
    rw [power]
    exact powerLoop_pow (Nat.zero_le _) (by omega)
  unfold getPower
  rw [stops]
  exact if_neg (not_not_intro power)

theorem getPower_zero {value : UInt32} (other : ∀ k, value.toNat ≠ 2 ^ k) :
    getPower value = 0 := by
  simp [getPower, other]

theorem pow_getPower (value : UInt32) (positive : 0 < getPower value) :
    value.toNat = 2 ^ getPower value := by
  by_contra wrong
  have other : ∀ k, value.toNat ≠ 2 ^ k := by
    intro k power
    exact wrong (by rw [getPower_pow power, power])
  rw [getPower_zero other] at positive
  exact lt_irrefl _ positive

/-! ## Clusters and sectors -/

/-- `GOOD_CLUSTER`. -/
def goodCluster (drv : DriveInfo) (cluster : UInt32) : Bool :=
  2 ≤ cluster && cluster - 2 < drv.dwDataClusters

/-- `fat_get_first_sector`: its assertion is empty in this build. -/
def fatGetFirstSector (drv : DriveInfo) (cluster : UInt32) : UInt32 :=
  if cluster = 0 ∨ cluster = FAT_BAD_NO then FAT_BAD_NO
  else if cluster = 1 then drv.dwFirstRootDirSector
  else ((cluster - 2) <<< drv.bClusterPower.toUInt32) + drv.dwFirstDataSector

/-- The start clusters `fat_seek` walks from: its check fails with `assert(0)` on the others. -/
def seekAccepts (drv : DriveInfo) (cluster : UInt32) : Bool :=
  !(cluster ≤ 1 || drv.dwClusterTotal ≤ cluster)

/-- Bytes of an entry of the FAT. -/
def fatEntrySize (drv : DriveInfo) : Nat :=
  if drv.bIsFAT32 then 4 else 2

/-- Number of entries one FAT has room for. -/
def fatEntries (drv : DriveInfo) : Nat :=
  drv.dwFATSize.toNat * drv.wSectorSize.toNat / fatEntrySize drv

/-! ## Reading a sector -/

/-- The driver under a drive: `read` takes the sector number, the length and what the
buffer holds, and answers a status with what the buffer holds then. -/
structure DriverOps (σ : Type) where
  /-- `ops->read` of one sector. -/
  read : σ → UInt32 → UInt16 → SectorBuf → Int × SectorBuf × σ
  /-- What `fat_format_16` leaves on the medium and in the buffer, with its status. -/
  format : σ → DriveInfo → SectorBuf → Int × SectorBuf × σ

/-- The medium and the swap buffer of the device. -/
structure FatState (σ : Type) where
  /-- State of the driver and its medium. -/
  medium : σ
  /-- The swap buffer `fat_cache_swap[bDevice]->cache`. -/
  cache : SectorBuf

variable {σ : Type}

/-- `fat_read` of one sector into the swap buffer. -/
def fatRead (ops : DriverOps σ) (drv : DriveInfo) (sector : UInt32) (s : FatState σ) :
    Int × FatState σ :=
  if drv.dwSectorTotal ≤ sector then (FS_ERR_ARG, s)
  else
    let answer := ops.read s.medium sector drv.wSectorSize s.cache
    (answer.1, { medium := answer.2.2, cache := answer.2.1 })

end PosFirmware.Fat

/-! ## Mounting a FAT volume

`fat_mount` of `fat.c`. It follows the partition table to a boot record, at most
ten sectors deep, and lays the regions of the volume out from the fields of that
record. The debug output and the table of mounted drives are left out.
-/

namespace PosFirmware.Fat

/-! ## The records of a boot sector -/

section Records

variable (r : SectorBuf)

/-- `BytsPerSec`. -/
def bytsPerSec : UInt16 := le16 r 11

/-- `SecPerClus`. -/
def secPerClus : UInt8 := r 13

/-- `RsvdSecCnt`. -/
def rsvdSecCnt : UInt16 := le16 r 14

/-- `NumFATs`. -/
def numFATs : UInt8 := r 16

/-- `RootEntCnt`. -/
def rootEntCnt : UInt16 := le16 r 17

/-- `FATSz16`. -/
def fatSz16 : UInt16 := le16 r 22

/-- `HiddSec`. -/
def hiddSec : UInt32 := le32 r 28

/-- `Off36.FAT32.FATSz32`. -/
def fatSz32 : UInt32 := le32 r 36

/-- `Off36.FAT32.RootClus`. -/
def rootClus : UInt32 := le32 r 44

/-- `Partition[i].BootInd`. -/
def bootInd (i : Nat) : UInt8 := r (446 + 16 * i)

/-- `Partition[i].StartSectors`. -/
def startSectors (i : Nat) : UInt32 := le32 r (454 + 16 * i)

/-- `Partition[i].NumSectors`. -/
def numSectors (i : Nat) : UInt32 := le32 r (458 + 16 * i)

/-- The signature `55 AA` at the end of a sector. -/
def sig55AA : Bool := r 510 = 0x55 && r 511 = 0xAA

/-- The first byte of a boot record is one of the two jump instructions. -/
def bootJump : Bool := r 0 = 0xEB || r 0 = 0xE9

end Records

/-- `fat_sig_ok`: a USB disk may also have the signature erased or zeroed. -/
def fatSigOk (driver : FsDevice) (buf : SectorBuf) : Bool :=
  match driver with
  | .udisk | .udiskA =>
    sig55AA buf || (buf 510 = 0 && buf 511 = 0) || (buf 510 = 0xFF && buf 511 = 0xFF)
  | .flash | .sdcard => sig55AA buf

variable {σ : Type}

/-- The loop of `mbr_check`: whether an active partition starts at a boot record. The
partition table it scans is the swap buffer, which each read replaces. The sector it
came from is read back at the end. -/
def mbrCheckFrom (ops : DriverOps σ) (pDrive : DriveInfo) (oldsec : UInt32) :
    List Nat → FatState σ → Bool × FatState σ
  | [], s => (false, (fatRead ops pDrive oldsec s).2)
  | i :: rest, s =>
    if bootInd s.cache i = 0x80 ∧ numSectors s.cache i ≠ 0 then
      let answer := fatRead ops pDrive (startSectors s.cache i) s
      if answer.1 ≠ FS_OK then mbrCheckFrom ops pDrive oldsec rest answer.2
      else if sig55AA answer.2.cache && bootJump answer.2.cache then
        (true, (fatRead ops pDrive oldsec answer.2).2)
      else mbrCheckFrom ops pDrive oldsec rest answer.2
    else mbrCheckFrom ops pDrive oldsec rest s

/-- `mbr_check`. -/
def mbrCheck (ops : DriverOps σ) (pDrive : DriveInfo) (oldsec : UInt32) (s : FatState σ) :
    Bool × FatState σ :=
  mbrCheckFrom ops pDrive oldsec (List.range 4) s

/-- The first partition in use. -/
def usedPartition (buf : SectorBuf) : Option Nat :=
  (List.range 4).find? fun j => numSectors buf j ≠ 0

/-- Whether the sector just read is the boot record, with the state after looking for a
partition that would make it a partition table. -/
def isBootRecord (ops : DriverOps σ) (pDrive : DriveInfo) (dwSector : UInt32)
    (s : FatState σ) : Bool × FatState σ :=
  if bootJump s.cache then
    let answer := mbrCheck ops pDrive dwSector s
    (!answer.1, answer.2)
  else (false, s)

/-- The loop of `fat_mount` that looks for the boot record: an error, or the boot record
as it is in the swap buffer then. -/
def findBootRecord (ops : DriverOps σ) (driver : FsDevice) (pDrive : DriveInfo) :
    Nat → UInt32 → FatState σ → Except Int SectorBuf
  | 0, _, _ => .error (-1)
  | tries + 1, dwSector, s =>
    let answer := fatRead ops pDrive dwSector s
    if answer.1 ≠ FS_OK then .error answer.1
    else if !fatSigOk driver answer.2.cache then
      if driver = .flash then
        let formatted := ops.format answer.2.medium pDrive answer.2.cache
        if formatted.1 ≠ FS_OK then .error (-1)
        else findBootRecord ops driver pDrive tries dwSector
          { medium := formatted.2.2, cache := formatted.2.1 }
      else .error (-1)
    else
      let boot := isBootRecord ops pDrive dwSector answer.2
      if boot.1 then .ok boot.2.cache
      else
        match usedPartition boot.2.cache with
        | none => .error (-1)
        | some j =>
          findBootRecord ops driver pDrive tries (startSectors boot.2.cache j) boot.2

/-! ## The layout -/

/-- How `fat_mount` ends. -/
inductive MountOutcome where
  /-- It returns an error. -/
  | error (err : Int)
  /-- It divides by zero. -/
  | divisionByZero
  /-- It returns `FS_OK` with the drive record filled in. -/
  | ok (drv : DriveInfo)

/-- The sector fields taken from the boot record. -/
def setSectorInfo (pDrive : DriveInfo) (r : SectorBuf) : DriveInfo :=
  { pDrive with
    wSectorSize := bytsPerSec r
    bSectorSizePower := getPower (bytsPerSec r).toUInt32
    wRsvSecCnt := rsvdSecCnt r
    dwHiddSecCnt := hiddSec r }

/-- The cluster fields. -/
def setClusterInfo (pDrive : DriveInfo) (r : SectorBuf) : DriveInfo :=
  { pDrive with
    bSectorsPerCluster := secPerClus r
    dwClusterTotal := pDrive.dwSectorTotal / (secPerClus r).toUInt32
    bClusterPower := getPower (secPerClus r).toUInt32
    dwClusterSize := (secPerClus r).toUInt32 * pDrive.wSectorSize.toUInt32 }

/-- `dwFATSz`: the 16-bit size, or the 32-bit one where that is zero. -/
def dwFATSz (r : SectorBuf) : UInt32 :=
  if fatSz16 r ≠ 0 then (fatSz16 r).toUInt32 else fatSz32 r

/-- The FAT fields. -/
def setFatInfo (pDrive : DriveInfo) (r : SectorBuf) : DriveInfo :=
  { pDrive with
    dwFATSize := dwFATSz r
    dwFAT1StartSector := pDrive.wRsvSecCnt.toUInt32 + pDrive.dwHiddSecCnt
    dwFAT2StartSector := pDrive.wRsvSecCnt.toUInt32 + pDrive.dwHiddSecCnt + dwFATSz r
    wRootEntCnt := rootEntCnt r
    dwRootDirSectors :=
      ((rootEntCnt r).toUInt32 * 32 + (pDrive.wSectorSize.toUInt32 - 1)) /
        pDrive.wSectorSize.toUInt32 }

/-- The first sector after the FATs and the root directory. -/
def firstDataSector (pDrive : DriveInfo) : UInt32 :=
  pDrive.dwFAT2StartSector + pDrive.dwFATSize + pDrive.dwRootDirSectors

/-- The sectors behind it. -/
def dataSectors (pDrive : DriveInfo) : UInt32 :=
  pDrive.dwSectorTotal - firstDataSector pDrive

/-- The clusters in them. -/
def dataClusters (pDrive : DriveInfo) : UInt32 :=
  dataSectors pDrive >>> pDrive.bClusterPower.toUInt32

/-- The root directory: after the FATs on FAT16, a chain of clusters on FAT32. -/
def setRootInfo (pDrive : DriveInfo) (r : SectorBuf) : DriveInfo :=
  if dataClusters pDrive < 65525 then
    { pDrive with
      bIsFAT32 := false
      dwFirstRootDirSector := pDrive.dwFAT2StartSector + pDrive.dwFATSize
      dwRootCluster := 1 }
  else
    let drv :=
      { pDrive with
        bIsFAT32 := true
        dwRootCluster := rootClus r
        dwFirstDataSector := firstDataSector pDrive }
    { drv with dwFirstRootDirSector := fatGetFirstSector drv (rootClus r) }

/-- The data region. -/
def setDataInfo (pDrive : DriveInfo) (r : SectorBuf) : DriveInfo :=
  { pDrive with
    dwFirstDataSector := firstDataSector pDrive
    dwDataSectors := dataSectors pDrive
    dwDataClusters := dataClusters pDrive
    dwCluster2StartSector :=
      hiddSec r + (rsvdSecCnt r).toUInt32 + (numFATs r).toUInt32 * dwFATSz r +
        pDrive.dwRootDirSectors
    bCacheEnable := true
    fatSectorOff := pDrive.dwFAT1StartSector }

/-- `fat_mount` after the FAT fields are set. -/
def mountRegions (pDrive : DriveInfo) (r : SectorBuf) : MountOutcome :=
  if dataClusters pDrive < 4085 then .error (-1)
  else .ok (setDataInfo (setRootInfo pDrive r) r)

/-- `fat_mount` after the sector fields are set. -/
def mountClusters (pDrive : DriveInfo) (r : SectorBuf) : MountOutcome :=
  if secPerClus r = 0 then .divisionByZero
  else if 7 < getPower (secPerClus r).toUInt32 then .error (-1)
  else if numFATs r ≠ 2 then .error (-1)
  else if dwFATSz r = 0 ∨ pDrive.dwSectorTotal < dwFATSz r then .error (-1)
  else mountRegions (setFatInfo (setClusterInfo pDrive r) r) r

/-- `fat_mount` once it has the boot record. -/
def mountRecord (pDrive : DriveInfo) (r : SectorBuf) : MountOutcome :=
  if getPower (bytsPerSec r).toUInt32 < 9 ∨ 12 < getPower (bytsPerSec r).toUInt32 then
    .error (-1)
  else mountClusters (setSectorInfo pDrive r) r

/-- `fat_mount`. -/
def fatMount (ops : DriverOps σ) (driver : FsDevice) (info : DriveInfo) (s : FatState σ) :
    MountOutcome :=
  if info.wSectorSize = 0 ∨ info.dwSectorTotal = 0 then .error (-1)
  else
    match findBootRecord ops driver info 10 0 s with
    | .error err => .error err
    | .ok r => mountRecord info r

end PosFirmware.Fat
