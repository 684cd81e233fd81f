import Mathlib.Algebra.Group.Int.Defs
import PosFirmware.Fat.Mount

/-!
# The layout of a mounted volume

`fat_mount` checks the sector size, the number of FATs, the size of a FAT and that
the volume is not FAT12. It divides by the sectors per cluster before looking at
them, takes a logarithm of zero as good, and never compares the regions with the
size of the disk. `fatMount_consistent_iff` says which boot records are laid out
consistently: those the checks refuse, and those that are well laid on their own.
-/

namespace PosFirmware.Fat

/-! ## What a consistent layout is -/

/-- The first sector of the root directory region, which is empty on FAT32. -/
def rootDirectory (drv : DriveInfo) : Nat :=
  if drv.bIsFAT32 then drv.dwFAT2StartSector.toNat + drv.dwFATSize.toNat
  else drv.dwFirstRootDirSector.toNat

/-- The layout every later sector computation rests on. -/
structure DriveInfo.Consistent (drv : DriveInfo) : Prop where
  /-- The sectors of a cluster are the power of two the shifts use. -/
  cluster : drv.bSectorsPerCluster.toNat = 2 ^ drv.bClusterPower
  /-- The second FAT starts after the first. -/
  fat1 : drv.dwFAT1StartSector.toNat + drv.dwFATSize.toNat ≤ drv.dwFAT2StartSector.toNat
  /-- The root directory starts after the second FAT. -/
  fat2 : drv.dwFAT2StartSector.toNat + drv.dwFATSize.toNat ≤ rootDirectory drv
  /-- The data region starts after the root directory. -/
  root : rootDirectory drv ≤ drv.dwFirstDataSector.toNat
  /-- The data region starts on the disk. -/
  data : drv.dwFirstDataSector.toNat ≤ drv.dwSectorTotal.toNat
  /-- It ends on the disk. -/
  clusters : drv.dwFirstDataSector.toNat +
    drv.dwDataClusters.toNat * drv.bSectorsPerCluster.toNat ≤ drv.dwSectorTotal.toNat
  /-- The FAT has an entry for every good cluster. -/
  entries : ∀ c, goodCluster drv c = true → c.toNat < fatEntries drv
  /-- `fat_seek` accepts every good cluster. -/
  seek : ∀ c, goodCluster drv c = true → seekAccepts drv c = true
  /-- The root cluster of a FAT32 volume is good. -/
  rootCluster : drv.bIsFAT32 = true → goodCluster drv drv.dwRootCluster = true

/-! ## What a well-laid boot record is -/

section BootRecord

variable (total : UInt32) (r : SectorBuf)

/-- Sectors before the first FAT: the reserved and the hidden ones, in 32 bits. -/
def headSectors : Nat := ((rsvdSecCnt r).toUInt32 + hiddSec r).toNat

/-- Sectors of the root directory region. -/
def rootSectors : Nat :=
  ((rootEntCnt r).toNat * 32 + ((bytsPerSec r).toNat - 1)) / (bytsPerSec r).toNat

/-- The sectors all regions before the data take up. -/
def regionsEnd : Nat := headSectors r + 2 * (dwFATSz r).toNat + rootSectors r

/-- Clusters in what is left of a disk of `total` sectors. -/
def volumeClusters : Nat := (total.toNat - regionsEnd r) / (secPerClus r).toNat

/-- The record asks for a sector of 512 to 4096 bytes. -/
def SectorSizeOk : Prop :=
  9 ≤ getPower (bytsPerSec r).toUInt32 ∧ getPower (bytsPerSec r).toUInt32 ≤ 12

/-- The record passes the other checks of `fat_mount`: two FATs, of a size between one
sector and the disk, and no FAT12 by the cluster count in 32-bit arithmetic. -/
def Checked : Prop :=
  numFATs r = 2 ∧ dwFATSz r ≠ 0 ∧ dwFATSz r ≤ total ∧
    4085 ≤ (((total.toNat : Int) - regionsEnd r) % 2 ^ 32).toNat /
      2 ^ getPower (secPerClus r).toUInt32

/-- The fields of the record describe a volume that fits on a disk of `total` sectors. -/
structure WellLaid : Prop where
  /-- The sectors per cluster are a power of two. -/
  power : ∃ k, (secPerClus r).toNat = 2 ^ k
  /-- Reserved and hidden sectors, both FATs and the root directory fit on the disk. -/
  fits : regionsEnd r ≤ total.toNat
  /-- A FAT has an entry for each cluster and the two reserved ones. -/
  entries : volumeClusters total r + 2 ≤ (dwFATSz r).toNat * (bytsPerSec r).toNat /
    (if volumeClusters total r < 65525 then 2 else 4)
  /-- The regions before the data take up the room of two clusters. -/
  head : volumeClusters total r + 2 ≤ total.toNat / (secPerClus r).toNat
  /-- The root cluster of a FAT32 volume is one of the clusters. -/
  root : 65525 ≤ volumeClusters total r →
    2 ≤ (rootClus r).toNat ∧ (rootClus r).toNat < volumeClusters total r + 2

/-- A boot record `fat_mount` does no harm with: it has a sectors-per-cluster field to
divide by, and is well laid unless a check refuses it. -/
def SoundRecord : Prop :=
  SectorSizeOk r → secPerClus r ≠ 0 ∧ (Checked total r → WellLaid total r)

end BootRecord

/-! ## Good clusters -/

variable {drv info : DriveInfo} {r : SectorBuf}

theorem goodCluster_iff {c : UInt32} :
    goodCluster drv c = true ↔ 2 ≤ c.toNat ∧ c.toNat < drv.dwDataClusters.toNat + 2 := by
  simp only [goodCluster, Bool.and_eq_true, decide_eq_true_eq, UInt32.le_iff_toNat_le,
    UInt32.lt_iff_toNat_lt, UInt32.reduceToNat]
  constructor
  · rintro ⟨low, high⟩
    rw [UInt32.toNat_sub_of_le c 2 (UInt32.le_iff_toNat_le.mpr low)] at high
    simp only [UInt32.reduceToNat] at high
    omega
  · rintro ⟨low, high⟩
    refine ⟨low, ?_⟩
    rw [UInt32.toNat_sub_of_le c 2 (UInt32.le_iff_toNat_le.mpr low)]
    simp only [UInt32.reduceToNat]
    omega

theorem seekAccepts_iff {c : UInt32} :
    seekAccepts drv c = true ↔ 2 ≤ c.toNat ∧ c.toNat < drv.dwClusterTotal.toNat := by
  simp only [seekAccepts, Bool.not_eq_true', Bool.or_eq_false_iff, decide_eq_false_iff_not,
    UInt32.le_iff_toNat_le, UInt32.reduceToNat]
  omega

theorem goodCluster_below {bound : Nat} (some : 0 < drv.dwDataClusters.toNat)
    (small : drv.dwDataClusters.toNat + 1 < 2 ^ 32) :
    (∀ c, goodCluster drv c = true → c.toNat < bound) ↔
      drv.dwDataClusters.toNat + 2 ≤ bound := by
  constructor
  · intro below
    have last := below (UInt32.ofNat (drv.dwDataClusters.toNat + 1)) (by
      rw [goodCluster_iff, UInt32.toNat_ofNat_of_lt' small]
      omega)
    rw [UInt32.toNat_ofNat_of_lt' small] at last
    omega
  · intro enough c good
    have := (goodCluster_iff.mp good).2
    omega

/-! ## The numbers of the layout -/

/-- The drive record with the fields up to the FAT filled in. -/
def layoutDrive (info : DriveInfo) (r : SectorBuf) : DriveInfo :=
  setFatInfo (setClusterInfo (setSectorInfo info r) r) r

/-- The record `fat_mount` fills in when all its checks pass. -/
def mountedDrive (info : DriveInfo) (r : SectorBuf) : DriveInfo :=
  setDataInfo (setRootInfo (layoutDrive info r) r) r

theorem setRootInfo_layout (drv : DriveInfo) :
    firstDataSector (setRootInfo drv r) = firstDataSector drv ∧
    dataClusters (setRootInfo drv r) = dataClusters drv ∧
    (setRootInfo drv r).dwFAT1StartSector = drv.dwFAT1StartSector ∧
    (setRootInfo drv r).dwFAT2StartSector = drv.dwFAT2StartSector ∧
    (setRootInfo drv r).dwFATSize = drv.dwFATSize ∧
    (setRootInfo drv r).dwSectorTotal = drv.dwSectorTotal ∧
    (setRootInfo drv r).wSectorSize = drv.wSectorSize ∧
    (setRootInfo drv r).bSectorsPerCluster = drv.bSectorsPerCluster ∧
    (setRootInfo drv r).bClusterPower = drv.bClusterPower ∧
    (setRootInfo drv r).dwClusterTotal = drv.dwClusterTotal := by
  unfold setRootInfo
  split <;> exact ⟨rfl, rfl, rfl, rfl, rfl, rfl, rfl, rfl, rfl, rfl⟩

theorem setRootInfo_fat32 (drv : DriveInfo) :
    (setRootInfo drv r).bIsFAT32 = decide (¬ dataClusters drv < 65525) := by
  unfold setRootInfo
  split
  · next few => simp [few]
  · next many => simp [many]

theorem setRootInfo_fat16 (drv : DriveInfo) (few : dataClusters drv < 65525) :
    (setRootInfo drv r).dwFirstRootDirSector = drv.dwFAT2StartSector + drv.dwFATSize := by
  unfold setRootInfo
  rw [if_pos few]

theorem setRootInfo_rootCluster (drv : DriveInfo) (many : ¬ dataClusters drv < 65525) :
    (setRootInfo drv r).dwRootCluster = rootClus r := by
  unfold setRootInfo
  rw [if_neg many]

theorem SectorSizeOk.range (size : SectorSizeOk r) :
    512 ≤ (bytsPerSec r).toNat ∧ (bytsPerSec r).toNat ≤ 4096 := by
  have power := pow_getPower (bytsPerSec r).toUInt32 (by have := size.1; omega)
  rw [UInt16.toNat_toUInt32] at power
  have low := Nat.pow_le_pow_right (n := 2) Nat.two_pos size.1
  have high := Nat.pow_le_pow_right (n := 2) Nat.two_pos size.2
  omega

theorem rootDirSectors_toNat (size : SectorSizeOk r) :
    (((rootEntCnt r).toUInt32 * 32 + ((bytsPerSec r).toUInt32 - 1)) /
      (bytsPerSec r).toUInt32).toNat = rootSectors r := by
  obtain ⟨low, high⟩ := size.range
  have entries := (rootEntCnt r).toNat_lt
  have one : (1 : UInt32) ≤ (bytsPerSec r).toUInt32 := by
    rw [UInt32.le_iff_toNat_le, UInt16.toNat_toUInt32]
    simp only [UInt32.reduceToNat]
    omega
  rw [UInt32.toNat_div, UInt32.toNat_add, UInt32.toNat_mul, UInt32.toNat_sub_of_le _ _ one]
  simp only [UInt16.toNat_toUInt32, UInt32.reduceToNat, rootSectors]
  rw [Nat.mod_eq_of_lt (b := 2 ^ 32) (by omega), Nat.mod_eq_of_lt (by omega)]

theorem rootSectors_lt (size : SectorSizeOk r) : rootSectors r < 2 ^ 22 := by
  obtain ⟨low, high⟩ := size.range
  have entries := (rootEntCnt r).toNat_lt
  refine Nat.lt_of_le_of_lt (Nat.div_le_self _ _) ?_
  omega

theorem layoutDrive_fat1 (info : DriveInfo) :
    (layoutDrive info r).dwFAT1StartSector.toNat = headSectors r := rfl

theorem layoutDrive_fat2 (info : DriveInfo) :
    (layoutDrive info r).dwFAT2StartSector.toNat =
      (headSectors r + (dwFATSz r).toNat) % 2 ^ 32 :=
  UInt32.toNat_add _ _

theorem layoutDrive_firstData (info : DriveInfo) (size : SectorSizeOk r) :
    (firstDataSector (layoutDrive info r)).toNat = regionsEnd r % 2 ^ 32 := by
  have root : (layoutDrive info r).dwRootDirSectors.toNat = rootSectors r :=
    rootDirSectors_toNat size
  have fat2 := layoutDrive_fat2 (r := r) info
  have fat : (layoutDrive info r).dwFATSize = dwFATSz r := rfl
  unfold firstDataSector
  rw [UInt32.toNat_add, UInt32.toNat_add, root, fat2, fat]
  unfold regionsEnd
  omega

theorem layoutDrive_dataClusters (info : DriveInfo) (size : SectorSizeOk r)
    (small : getPower (secPerClus r).toUInt32 ≤ 7) :
    (dataClusters (layoutDrive info r)).toNat =
      (((info.dwSectorTotal.toNat : Int) - regionsEnd r) % 2 ^ 32).toNat /
        2 ^ getPower (secPerClus r).toUInt32 := by
  have first := layoutDrive_firstData info size
  have power : (layoutDrive info r).bClusterPower = getPower (secPerClus r).toUInt32 := rfl
  have total : (layoutDrive info r).dwSectorTotal = info.dwSectorTotal := rfl
  have shift : (getPower (secPerClus r).toUInt32).toUInt32.toNat % 32 =
      getPower (secPerClus r).toUInt32 := by
    rw [Nat.toUInt32_eq, UInt32.toNat_ofNat']
    omega
  unfold dataClusters dataSectors
  rw [UInt32.toNat_shiftRight, UInt32.toNat_sub, power, shift, Nat.shiftRight_eq_div_pow, total,
    first]
  congr 1
  omega

theorem getPower_byte (value : UInt8) : getPower value.toUInt32 ≤ 7 := by
  by_contra large
  have power := pow_getPower value.toUInt32 (by omega)
  have bound := value.toNat_lt
  have high := Nat.pow_le_pow_right (n := 2) Nat.two_pos (show 8 ≤ getPower value.toUInt32 by omega)
  rw [UInt8.toNat_toUInt32] at power
  omega

/-! ## Which records are laid out consistently -/

section Layout

variable (info r) in
/-- The fields of the mounted record, in numbers. -/
structure LayoutNumbers : Prop where
  /-- Sectors of a cluster. -/
  spc : (mountedDrive info r).bSectorsPerCluster = secPerClus r
  /-- Their power. -/
  power : (mountedDrive info r).bClusterPower = getPower (secPerClus r).toUInt32
  /-- The first FAT. -/
  fat1 : (mountedDrive info r).dwFAT1StartSector.toNat = headSectors r
  /-- The second FAT. -/
  fat2 : (mountedDrive info r).dwFAT2StartSector.toNat =
    (headSectors r + (dwFATSz r).toNat) % 2 ^ 32
  /-- The size of a FAT. -/
  fatSize : (mountedDrive info r).dwFATSize = dwFATSz r
  /-- The root directory. -/
  root : rootDirectory (mountedDrive info r) =
    if (mountedDrive info r).dwDataClusters.toNat < 65525 then
      ((headSectors r + (dwFATSz r).toNat) % 2 ^ 32 + (dwFATSz r).toNat) % 2 ^ 32
    else (headSectors r + (dwFATSz r).toNat) % 2 ^ 32 + (dwFATSz r).toNat
  /-- The data region. -/
  data : (mountedDrive info r).dwFirstDataSector.toNat = regionsEnd r % 2 ^ 32
  /-- The disk. -/
  total : (mountedDrive info r).dwSectorTotal = info.dwSectorTotal
  /-- The data clusters. -/
  clusters : (mountedDrive info r).dwDataClusters.toNat =
    (((info.dwSectorTotal.toNat : Int) - regionsEnd r) % 2 ^ 32).toNat /
      2 ^ getPower (secPerClus r).toUInt32
  /-- The clusters of the disk. -/
  clusterTotal : (mountedDrive info r).dwClusterTotal.toNat =
    info.dwSectorTotal.toNat / (secPerClus r).toNat
  /-- The entries of a FAT. -/
  entries : fatEntries (mountedDrive info r) = (dwFATSz r).toNat * (bytsPerSec r).toNat /
    if (mountedDrive info r).dwDataClusters.toNat < 65525 then 2 else 4
  /-- The kind of the volume. -/
  fat32 : (mountedDrive info r).bIsFAT32 = true ↔
    65525 ≤ (mountedDrive info r).dwDataClusters.toNat
  /-- The root cluster of a FAT32 volume. -/
  rootCluster : 65525 ≤ (mountedDrive info r).dwDataClusters.toNat →
    (mountedDrive info r).dwRootCluster = rootClus r

theorem layoutNumbers (info : DriveInfo) (size : SectorSizeOk r) : LayoutNumbers info r := by
  obtain ⟨first, clusters, fat1, fat2, fatSize, total, sectorSize, spc, power, clusterTotal⟩ :=
    setRootInfo_layout (r := r) (layoutDrive info r)
  have dataEq : (mountedDrive info r).dwDataClusters = dataClusters (layoutDrive info r) :=
    clusters
  have few : (mountedDrive info r).dwDataClusters.toNat < 65525 ↔
      dataClusters (layoutDrive info r) < 65525 := by
    rw [dataEq, UInt32.lt_iff_toNat_lt]
    rfl
  have kind : (mountedDrive info r).bIsFAT32 =
      decide (¬ dataClusters (layoutDrive info r) < 65525) := setRootInfo_fat32 _
  have fat2Nat := layoutDrive_fat2 (r := r) info
  refine ⟨spc, power, (congrArg UInt32.toNat fat1).trans (layoutDrive_fat1 info),
    (congrArg UInt32.toNat fat2).trans fat2Nat, fatSize, ?_, ?_, total, ?_, ?_, ?_, ?_, ?_⟩
  · unfold rootDirectory
    rw [kind]
    by_cases small : dataClusters (layoutDrive info r) < 65525
    · rw [if_pos (few.mpr small)]
      have rootEq : (mountedDrive info r).dwFirstRootDirSector =
          (layoutDrive info r).dwFAT2StartSector + (layoutDrive info r).dwFATSize :=
        setRootInfo_fat16 _ small
      simp only [small, not_true, decide_false, Bool.false_eq_true, if_false, rootEq]
      rw [UInt32.toNat_add, fat2Nat]
      rfl
    · rw [if_neg (fun h => small (few.mp h))]
      simp only [small, not_false_eq_true, decide_true, if_true]
      exact congrArg₂ (· + ·) ((congrArg UInt32.toNat fat2).trans fat2Nat)
        (congrArg UInt32.toNat fatSize)
  · exact (congrArg UInt32.toNat first).trans (layoutDrive_firstData info size)
  · rw [dataEq]
    exact layoutDrive_dataClusters info size (getPower_byte _)
  · have eq : (mountedDrive info r).dwClusterTotal =
        info.dwSectorTotal / (secPerClus r).toUInt32 := clusterTotal
    rw [eq, UInt32.toNat_div, UInt8.toNat_toUInt32]
  · unfold fatEntries fatEntrySize
    have sizes : (mountedDrive info r).dwFATSize.toNat * (mountedDrive info r).wSectorSize.toNat =
        (dwFATSz r).toNat * (bytsPerSec r).toNat :=
      congrArg₂ (· * ·) (congrArg UInt32.toNat fatSize) (congrArg UInt16.toNat sectorSize)
    rw [sizes, kind]
    by_cases small : dataClusters (layoutDrive info r) < 65525
    · rw [if_pos (few.mpr small)]
      simp only [small, not_true, decide_false, Bool.false_eq_true, if_false]
    · rw [if_neg (fun h => small (few.mp h))]
      simp only [small, not_false_eq_true, decide_true, if_true]
  · rw [kind, decide_eq_true_eq, ← few]
    exact not_lt
  · intro many
    exact setRootInfo_rootCluster _ (fun small => absurd (few.mpr small) (not_lt.mpr many))

/-- **A checked record is laid out consistently exactly when it is well laid.** -/
theorem mountedDrive_consistent_iff (info : DriveInfo) (size : SectorSizeOk r)
    (checked : Checked info.dwSectorTotal r) :
    (mountedDrive info r).Consistent ↔ WellLaid info.dwSectorTotal r := by
  have n := layoutNumbers info size
  obtain ⟨-, someFat, -, enough⟩ := checked
  rw [← n.clusters] at enough
  have rootSmall := rootSectors_lt size
  have totalSmall := info.dwSectorTotal.toNat_lt
  have fatSmall := (dwFATSz r).toNat_lt
  have headSmall : headSectors r < 2 ^ 32 := UInt32.toNat_lt _
  have ends : regionsEnd r = headSectors r + 2 * (dwFATSz r).toNat + rootSectors r := rfl
  -- with a power of two and all regions on the disk, the cluster count is the plain one
  have plain : (secPerClus r).toNat = 2 ^ getPower (secPerClus r).toUInt32 →
      regionsEnd r ≤ info.dwSectorTotal.toNat →
      (mountedDrive info r).dwDataClusters.toNat = volumeClusters info.dwSectorTotal r := by
    intro power fits
    rw [n.clusters, volumeClusters, ← power]
    congr 1
    omega
  have last : regionsEnd r ≤ info.dwSectorTotal.toNat →
      (mountedDrive info r).dwDataClusters.toNat + 1 < 2 ^ 32 := by
    intro fits
    have positive : (dwFATSz r).toNat ≠ 0 := fun zero => someFat (UInt32.toNat_inj.mp zero)
    have shrinks := Nat.div_le_self
      (((info.dwSectorTotal.toNat : Int) - regionsEnd r) % 2 ^ 32).toNat
      (2 ^ getPower (secPerClus r).toUInt32)
    rw [← n.clusters] at shrinks
    omega
  constructor
  · intro good
    have power : (secPerClus r).toNat = 2 ^ getPower (secPerClus r).toUInt32 := by
      have cluster := good.cluster
      rw [n.power, n.spc] at cluster
      exact cluster
    have fat1 := good.fat1
    have fat2 := good.fat2
    have root := good.root
    have data := good.data
    rw [n.fat1, n.fat2, n.fatSize] at fat1
    rw [n.fat2, n.fatSize, n.root] at fat2
    rw [n.root, n.data] at root
    rw [n.data, n.total] at data
    have fits : regionsEnd r ≤ info.dwSectorTotal.toNat := by
      split at fat2 <;> simp only [*, if_true, if_false] at root <;> omega
    have count := plain power fits
    have entries := (goodCluster_below (by omega) (last fits)).mp good.entries
    have seek := (goodCluster_below (by omega) (last fits)).mp fun c isGood =>
      (seekAccepts_iff.mp (good.seek c isGood)).2
    rw [n.entries, count] at entries
    rw [n.clusterTotal, count] at seek
    refine ⟨⟨_, power⟩, fits, entries, seek, fun many => ?_⟩
    have isFAT32 := n.fat32.mpr (count ▸ many)
    have rootGood := goodCluster_iff.mp (good.rootCluster isFAT32)
    rw [n.rootCluster (count ▸ many), count] at rootGood
    exact rootGood
  · intro laid
    obtain ⟨k, pow⟩ := laid.power
    have power : (secPerClus r).toNat = 2 ^ getPower (secPerClus r).toUInt32 := by
      rw [getPower_pow (k := k) (by rw [UInt8.toNat_toUInt32, pow]), pow]
    have fits := laid.fits
    have count := plain power fits
    refine ⟨?_, ?_, ?_, ?_, ?_, ?_, ?_, ?_, ?_⟩
    · rw [n.spc, n.power]
      exact power
    · rw [n.fat1, n.fat2, n.fatSize]
      omega
    · rw [n.fat2, n.fatSize, n.root]
      split <;> omega
    · rw [n.root, n.data]
      split <;> omega
    · rw [n.data, n.total]
      omega
    · rw [n.data, n.total, n.spc, count, volumeClusters]
      have := Nat.div_mul_le_self (info.dwSectorTotal.toNat - regionsEnd r) (secPerClus r).toNat
      omega
    · rw [goodCluster_below (by omega) (last fits), n.entries, count]
      exact laid.entries
    · intro c isGood
      have bounds := goodCluster_iff.mp isGood
      have head := laid.head
      rw [count] at bounds
      rw [seekAccepts_iff, n.clusterTotal]
      omega
    · intro isFAT32
      have many := n.fat32.mp isFAT32
      rw [goodCluster_iff, n.rootCluster many, count]
      exact laid.root (count ▸ many)

end Layout

/-- What `fat_mount` makes of a boot record. -/
theorem mountRecord_sound_iff :
    (mountRecord info r ≠ .divisionByZero ∧
      ∀ drv, mountRecord info r = .ok drv → drv.Consistent) ↔
    SoundRecord info.dwSectorTotal r := by
  unfold mountRecord SoundRecord
  by_cases size : ¬ SectorSizeOk r
  · have refused : getPower (bytsPerSec r).toUInt32 < 9 ∨
        12 < getPower (bytsPerSec r).toUInt32 := by
      unfold SectorSizeOk at size
      omega
    simp [refused, size]
  rw [not_not] at size
  have passed : ¬ (getPower (bytsPerSec r).toUInt32 < 9 ∨
      12 < getPower (bytsPerSec r).toUInt32) := by
    unfold SectorSizeOk at size
    omega
  rw [if_neg passed, mountClusters]
  by_cases zero : secPerClus r = 0
  · simp [zero, size]
  rw [if_neg zero, if_neg (not_lt.mpr (getPower_byte _))]
  have enough := layoutDrive_dataClusters info size (getPower_byte _)
  have fat12 : dataClusters (layoutDrive info r) < 4085 ↔
      ¬ 4085 ≤ (((info.dwSectorTotal.toNat : Int) - regionsEnd r) % 2 ^ 32).toNat /
        2 ^ getPower (secPerClus r).toUInt32 := by
    rw [UInt32.lt_iff_toNat_lt, enough, not_le]
    rfl
  by_cases checked : Checked info.dwSectorTotal r
  · obtain ⟨fats, someFat, fatFits, clusters⟩ := checked
    have fatGood : ¬ (dwFATSz r = 0 ∨
        (setSectorInfo info r).dwSectorTotal < dwFATSz r) :=
      not_or.mpr ⟨someFat, UInt32.not_lt.mpr fatFits⟩
    rw [if_neg (not_not_intro fats), if_neg fatGood, mountRegions]
    have fat16 : ¬ dataClusters (layoutDrive info r) < 4085 :=
      fun few => fat12.mp few clusters
    have mounts : (if dataClusters (setFatInfo (setClusterInfo (setSectorInfo info r) r) r) < 4085
        then MountOutcome.error (-1)
        else .ok (setDataInfo (setRootInfo
          (setFatInfo (setClusterInfo (setSectorInfo info r) r) r) r) r)) =
        .ok (mountedDrive info r) := if_neg fat16
    rw [mounts]
    have wellLaid :=
      mountedDrive_consistent_iff info size ⟨fats, someFat, fatFits, clusters⟩
    constructor
    · rintro ⟨-, good⟩ -
      exact ⟨zero, fun _ => wellLaid.mp (good _ rfl)⟩
    · intro sound
      refine ⟨nofun, ?_⟩
      rintro drv ⟨⟩
      exact wellLaid.mpr ((sound size).2 ⟨fats, someFat, fatFits, clusters⟩)
  · have refused : (if numFATs r ≠ 2 then MountOutcome.error (-1)
        else if dwFATSz r = 0 ∨ (setSectorInfo info r).dwSectorTotal < dwFATSz r then .error (-1)
        else mountRegions (setFatInfo (setClusterInfo (setSectorInfo info r) r) r) r) =
        .error (-1) := by
      by_cases fats : numFATs r ≠ 2
      · exact if_pos fats
      rw [if_neg fats]
      by_cases fatBad : dwFATSz r = 0 ∨ (setSectorInfo info r).dwSectorTotal < dwFATSz r
      · exact if_pos fatBad
      rw [if_neg fatBad, mountRegions]
      obtain ⟨someFat, fatFits⟩ := not_or.mp fatBad
      have few : dataClusters (layoutDrive info r) < 4085 := fat12.mpr fun clusters =>
        checked ⟨not_not.mp fats, someFat, UInt32.not_lt.mp fatFits, clusters⟩
      exact if_pos few
    rw [refused]
    exact ⟨fun _ _ => ⟨zero, fun c => absurd c checked⟩, fun _ => ⟨nofun, nofun⟩⟩

/-- **Which media `fat_mount` lays out consistently.** It divides by no zero and every
drive record it accepts is consistent, exactly when the boot record it finds is sound. -/
theorem fatMount_consistent_iff {σ : Type} (ops : DriverOps σ) (driver : FsDevice)
    (info : DriveInfo) (s : FatState σ) :
    (fatMount ops driver info s ≠ .divisionByZero ∧
      ∀ drv, fatMount ops driver info s = .ok drv → drv.Consistent) ↔
    (info.wSectorSize ≠ 0 → info.dwSectorTotal ≠ 0 → ∀ r,
      findBootRecord ops driver info 10 0 s = .ok r → SoundRecord info.dwSectorTotal r) := by
  unfold fatMount
  by_cases bad : info.wSectorSize = 0 ∨ info.dwSectorTotal = 0
  · rw [if_pos bad]
    refine ⟨fun _ someSize someTotal => ?_, fun _ => ⟨nofun, nofun⟩⟩
    exact absurd bad (not_or.mpr ⟨someSize, someTotal⟩)
  rw [if_neg bad]
  obtain ⟨someSize, someTotal⟩ := not_or.mp bad
  cases found : findBootRecord ops driver info 10 0 s with
  | error err => exact ⟨fun _ _ _ => nofun, fun _ => ⟨nofun, nofun⟩⟩
  | ok r =>
    rw [mountRecord_sound_iff]
    constructor
    · rintro sound - - _ ⟨⟩
      exact sound
    · intro sound
      exact sound someSize someTotal r rfl

/-! ## Two records that go wrong -/

/-- A boot record of 512-byte sectors with the given fields at their offsets. -/
def bootRecord (fields : List (Nat × UInt8)) : SectorBuf := fun i =>
  ((fields.find? fun f => f.1 = i).map Prod.snd).getD 0

/-- A medium that answers every read with one sector. -/
def constantMedium (r : SectorBuf) : DriverOps Unit where
  read := fun _ _ _ _ => (FS_OK, r, ())
  format := fun _ _ buf => (-1, buf, ())

/-- A drive of 65536 sectors of 512 bytes, not mounted yet. -/
def rawDrive : DriveInfo where
  bIsFAT32 := false
  bCacheEnable := false
  fatSectorOff := 0
  dwSectorTotal := 65536
  wSectorSize := 512
  bSectorSizePower := 0
  wRsvSecCnt := 0
  dwHiddSecCnt := 0
  bSectorsPerCluster := 0
  bClusterPower := 0
  dwClusterTotal := 0
  dwClusterSize := 0
  dwFAT1StartSector := 0
  dwFAT2StartSector := 0
  dwFATSize := 0
  wRootEntCnt := 0
  dwFirstRootDirSector := 0
  dwRootCluster := 0
  dwRootDirSectors := 0
  dwCluster2StartSector := 0
  dwFirstDataSector := 0
  dwDataSectors := 0
  dwDataClusters := 0

/-- A boot record without sectors per cluster. -/
def noSecPerClus : SectorBuf :=
  bootRecord [(0, 0xEB), (12, 2), (14, 1), (16, 2), (22, 32), (510, 0x55), (511, 0xAA)]

/-- A boot record of a FAT of one sector on a disk of 16384 clusters. -/
def shortFat : SectorBuf :=
  bootRecord [(0, 0xEB), (12, 2), (13, 4), (14, 1), (16, 2), (22, 1), (510, 0x55), (511, 0xAA)]

/-- **Mounting divides by zero, or accepts a FAT too short for its clusters.** -/
theorem fatMount_inconsistent :
    fatMount (constantMedium noSecPerClus) .sdcard rawDrive
      { medium := (), cache := fun _ => 0 } = .divisionByZero ∧
    ∃ drv, fatMount (constantMedium shortFat) .sdcard rawDrive
      { medium := (), cache := fun _ => 0 } = .ok drv ∧ ¬ drv.Consistent :=
  ⟨rfl, _, rfl, fun good => absurd (good.entries 300 (by decide)) (by decide)⟩

end PosFirmware.Fat
