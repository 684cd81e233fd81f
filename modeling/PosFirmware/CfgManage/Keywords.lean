import PosFirmware.Foundation.Strings

/-! # Keywords of the configuration

The table of `Keyword.c` and the check of a keyword and of what it is set to, `verify_symbol` of
`CfgManage.c`.
-/

namespace PosFirmware.CfgManage

open PosFirmware.Foundation

abbrev Byte := BitVec 8

def ITEM_SIZE : Nat := 20

/-- The bytes of a string constant. -/
def text (s : String) : List Byte := s.toList.map fun c => BitVec.ofNat 8 c.toNat

inductive ConfigType
  | cfg
  | board
  | para
  | other
  deriving DecidableEq

/-- `S_VERSION_CONFIG`: the keyword is the first of the items. -/
structure VersionConfig where
  type : ConfigType
  keyword : String
  others : List String

def VersionConfig.items (config : VersionConfig) : List (List Byte) :=
  text config.keyword :: config.others.map text

/-- `s_Versicon_Keyword`. -/
def versiconKeyword : List VersionConfig :=
  [ -- OTHER_TYPE
    ⟨.other, "PN", []⟩,
    ⟨.other, "CONFIG_FILE_VER", []⟩,
    ⟨.other, "TERMINAL_NAME", []⟩,
    ⟨.other, "C_TERMINAL", []⟩,
    ⟨.other, "C_PN", []⟩,
    ⟨.other, "TERMINAL_RF_STYLE", []⟩,
    -- BOARD_TYPE
    ⟨.board, "MAIN_BOARD", []⟩,
    ⟨.board, "PORT_BOARD", []⟩,
    ⟨.board, "MODEM_BOARD", []⟩,
    ⟨.board, "RF_BOARD", []⟩,
    ⟨.board, "ANT_BOARD", []⟩,
    ⟨.board, "GPRS_BOARD", []⟩,
    ⟨.board, "CDMA_BOARD", []⟩,
    ⟨.board, "WCDMA_BOARD", []⟩,
    ⟨.board, "TD_BOARD", []⟩,
    ⟨.board, "WIFI_BOARD", []⟩,
    ⟨.board, "KEY_BOARD", []⟩,
    ⟨.board, "IP_BOARD", []⟩,
    ⟨.board, "PRINT_BOARD", []⟩,
    ⟨.board, "POWER_BOARD", []⟩,
    ⟨.board, "SAM_BOARD", []⟩,
    ⟨.board, "ICCARD_BOARD", []⟩,
    ⟨.board, "MESH_BOARD", []⟩,
    ⟨.board, "TELEPHONE_BOARD", []⟩,
    ⟨.board, "DISP_BOARD", []⟩,
    -- PARA_TYPE
    ⟨.para, "RF_PARA_1", []⟩,
    ⟨.para, "RF_PARA_2", []⟩,
    ⟨.para, "RF_PARA_3", []⟩,
    ⟨.para, "G_SENSOR_PARA", []⟩,
    ⟨.para, "SEN_PARA", []⟩,
    ⟨.para, "TOUCH_KEY_PARA_1", []⟩,
    ⟨.para, "TOUCH_KEY_PARA_2", []⟩,
    ⟨.para, "TOUCH_KEY_PARA_3", []⟩,
    -- CFG_TYPE
    ⟨.cfg, "PRINTER", ["MP130", "PT486F", "FTP628", "SS205", "M-T183", "JT-TP208", "PRT-48A",
      "PRT-488A", "LTP02-245", "LTPJ245G", "PRT-48F", "01", "02", "03", "04", "05", "06", "07",
      "08"]⟩,
    ⟨.cfg, "TOUCH_SCREEN", ["TFT1N7070-V1-E", "TM035KBH08", "RTP_001", "01", "02", "03", "04",
      "05", "06", "07", "08", "09", "10", "11", "12", "13"]⟩,
    ⟨.cfg, "MAG_CARD", ["21006540", "M3-2300LQ", "AP-S012", "IDHA-5112", "21030058", "ZA9L0",
      "MH1601-V01", "NULL"]⟩,
    ⟨.cfg, "IC_CARD", ["00", "01", "02", "03", "04", "05", "06", "07"]⟩,
    ⟨.cfg, "RF_1356M", ["01", "02", "03", "04", "05", "06"]⟩,
    ⟨.cfg, "RF_24G", ["NATIONZ-1", "NATIONZ-1-2", "NATIONZ-2", "SHNM100", "unFang-1", "EM350",
      "SOSIM"]⟩,
    ⟨.cfg, "G_SENSOR", ["ADXL345BCCZ"]⟩,
    ⟨.cfg, "ETHERNET", ["DM9000", "BCM5892", "ON-CHIP"]⟩,
    ⟨.cfg, "MODEM", ["CX93011", "ZA9L0", "Si2457D"]⟩,
    ⟨.cfg, "CDMA", ["EM200", "Q26Elite", "MC509"]⟩,
    ⟨.cfg, "GPRS", ["Q24C", "Q24E", "Q2687RD", "GSM0306-70", "G24", "BGS2", "MG323-B",
      "G620-A50", "G620-Q50", "G610", "01", "02", "03", "04", "09"]⟩,
    ⟨.cfg, "WCDMA", ["EM701", "MU509", "01", "05", "06", "07", "08", "10"]⟩,
    ⟨.cfg, "TD", ["SIM4100D"]⟩,
    ⟨.cfg, "WIFI_NET", ["CO2128", "WG1300-00", "RS9110-N-11-24", "02", "03", "04", "05", "06",
      "07", "08"]⟩,
    ⟨.cfg, "BAR_CODE", ["MOTOROLA-SE955", "MOTOROLA-SE655", "HONEYWELL-ME5100", "ZM1000", "01",
      "02", "03", "04", "05", "06", "07", "08", "09", "11", "12", "13", "14"]⟩,
    ⟨.cfg, "BLUE_TOOTH", ["WT12", "BM57SPP", "01", "02", "03", "04", "05", "06", "07", "08",
      "09"]⟩,
    ⟨.cfg, "SD_READER", ["NULL", "ON-CHIP"]⟩,
    ⟨.cfg, "USB", ["SL811HS"]⟩,
    ⟨.cfg, "DUAL_SIM", ["TRUE"]⟩,
    ⟨.cfg, "LCD", ["TFT_H24C117-00N", "LCD_001", "LCD_002", "01", "02", "03", "04", "05", "06",
      "07", "08", "09", "10", "11", "12", "13", "14", "15", "16", "17", "18", "19", "20", "21",
      "22", "23", "24", "25", "26", "27", "28", "29", "30"]⟩,
    ⟨.cfg, "TOUCH_KEY", ["CY8C20434", "CY8C20436A"]⟩,
    ⟨.cfg, "AUDIO", ["CS4344-CZZ", "01"]⟩,
    ⟨.cfg, "COMM_TYPE", ["RS232A", "USB", "01"]⟩,
    ⟨.cfg, "BAT_DECT", ["TRUE", "FALSE"]⟩,
    ⟨.cfg, "SAM_NUM", ["01", "02", "03", "04"]⟩,
    ⟨.cfg, "GPS", ["01", "02", "03"]⟩,
    ⟨.cfg, "CIPHER_CHIP", ["NULL", "01", "02", "03", "04"]⟩,
    ⟨.cfg, "KEY_LAYOUT", ["01", "02"]⟩,
    ⟨.cfg, "4G", ["01", "13", "14"]⟩,
    ⟨.cfg, "CAMERA_NUMBER", ["NULL", "01", "02"]⟩]

/-- The keywords of the table. -/
def Known (keyword : List Byte) : Prop :=
  keyword ∈ versiconKeyword.map fun config => text config.keyword

/-! ## `verify_symbol` -/

def isBlank (c : Byte) : Bool := c == 0x20 || c == 0x09

/-- The string without blanks in front, up to the next blank. -/
def trimmed (src : List Byte) : List Byte :=
  (src.dropWhile isBlank).takeWhile fun c => !isBlank c

/-- The search of a keyword. -/
def keywordNum (buf : List Byte) : Int :=
  match versiconKeyword.findIdx? fun config => text config.keyword = buf with
  | some i => i
  | none => -1

/-- The check of what a keyword is set to. -/
def contextNum (config : VersionConfig) (buf : List Byte) : Int :=
  if config.type ≠ .cfg then 0
  else
    match config.items.findIdx? fun item => (strstr buf item).isSome with
    | some i => i
    | none => if buf = text "NULL" then 0 else -2

/-- `verify_symbol`: the string that it leaves in `src` and what it returns, or nothing where the
string is too long for `buf`. -/
def verifySymbol (src : List Byte) (itemNum : Int) : Option (List Byte × Int) :=
  if ITEM_SIZE * 2 ≤ (trimmed src).length then none
  else if itemNum < 0 then some (trimmed src, keywordNum (trimmed src))
  else versiconKeyword[itemNum.toNat]?.map fun config =>
    (trimmed src, contextNum config (trimmed src))

end PosFirmware.CfgManage
