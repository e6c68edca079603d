/-
The one form of a name. Every character of a name stands for none, one or
several others: letters for those in lower case, variants of a letter for the
letter, ligatures for their parts, and characters without a meaning in names
for nothing. A few characters a name may not hold.
-/
import Stencil.Text.Case
import Stencil.Text.Composition
import Stencil.Text.Quoted

namespace Stencil.Url.Name

open Text (CodeRanges)

-- ============================================================ the tables

/-- Characters that stand for nothing. -/
def ignoredRanges : CodeRanges :=
  [(0xAD, 0xAD), (0x34F, 0x34F), (0x115F, 0x1160), (0x17B4, 0x17B5),
   (0x180B, 0x180F), (0x200B, 0x200B), (0x2060, 0x2064), (0x206A, 0x206F),
   (0x3164, 0x3164), (0xFE00, 0xFE0F), (0xFEFF, 0xFEFF), (0xFFA0, 0xFFA0),
   (0x1BCA0, 0x1BCA3), (0x1D173, 0x1D17A), (0xE0100, 0xE01EF)]

/-- Characters that show something, but not in a name. -/
def refusedRanges : CodeRanges :=
  [(0xA8, 0xA8), (0xAF, 0xAF), (0xB4, 0xB4), (0xB8, 0xB8), (0x2D8, 0x2DD),
   (0x37A, 0x37A), (0x384, 0x385), (0x1FBD, 0x1FBD), (0x1FBF, 0x1FC1),
   (0x1FCD, 0x1FCF), (0x1FDD, 0x1FDF), (0x1FED, 0x1FEE), (0x1FFD, 0x1FFE),
   (0x2017, 0x2017), (0x2024, 0x2026), (0x203E, 0x203E), (0x2488, 0x249B),
   (0x2FF0, 0x2FFF), (0x309B, 0x309C), (0x31EF, 0x31EF), (0x33C2, 0x33C2),
   (0x33C7, 0x33C7), (0x33D8, 0x33D8), (0xFC5E, 0xFC63), (0xFDFA, 0xFDFB),
   (0xFE12, 0xFE12), (0xFE19, 0xFE19), (0xFE30, 0xFE30), (0xFE49, 0xFE4C),
   (0xFE52, 0xFE52), (0xFE70, 0xFE70), (0xFE72, 0xFE72), (0xFE74, 0xFE74),
   (0xFE76, 0xFE76), (0xFE78, 0xFE78), (0xFE7A, 0xFE7A), (0xFE7C, 0xFE7C),
   (0xFE7E, 0xFE7E), (0xFFE3, 0xFFE3), (0xFFFC, 0xFFFD), (0x1F100, 0x1F100)]

/-- Capital letters that stand for themselves. -/
def keptRanges : CodeRanges :=
  [(0x13A0, 0x13F5)]

/-- Rows of characters that stand for one character each. A blank is in the
place of one that is not listed. -/
def letterRows : List (Nat × String) :=
  [(0xAA, "a"),
   (0xB2, "23 μ"),
   (0x17F, "s"),
   (0x2B0, "hɦjrɹɻʁwy"),
   (0x2E0, "ɣlsxʕ"),
   (0x374, "ʹ"),
   (0x37E, ";"),
   (0x387, "·"),
   (0x3D0, "βθυύϋφπ"),
   (0x3F0, "κρσ  ε"),
   (0x3F9, "σ"),
   (0xF0C, "་"),
   (0x10FC, "ნ"),
   (0x13F8, "ᏰᏱᏲᏳᏴᏵ"),
   (0x1C80, "вдосттъѣꙋ"),
   (0x1D2C, "aæb deǝghijklmn oȣprtuwaɐɑᴂbdeəɛɜg kmŋoɔᴖᴗptuᴝɯvᴥβγδ"),
   (0x1D60, "φχiruvβγρφχ"),
   (0x1D78, "н"),
   (0x1D9B, "ɒcɕðɜfɟɡɥɨɩɪᵻʝɭᶅʟɱɰɲɳɴɵɸʂʃƫʉʊᴜʋʌzʐʑʒθ"),
   (0x1FD3, "ΐ"),
   (0x1FDB, "ί"),
   (0x1FE3, "ΰ"),
   (0x1FEB, "ύ"),
   (0x2011, "‐"),
   (0x2070, "0i  456789+−=()n0123456789+−=() aeoxəhklmnpst"),
   (0x210A, "ghhhhħiill"),
   (0x2128, "z"),
   (0x2145, "ddeij"),
   (0x2329, "〈〉"),
   (0x24B6, "abcdefghijklmnopqrstuvwxyzabcdefghijklmnopqrstuvwxyz"),
   (0x24EA, "0"),
   (0x2C7C, "jv"),
   (0x2D6F, "ⵡ"),
   (0x2E9F, "母"),
   (0x2EF3, "龟"),
   (0x2F00, "一丨丶丿乙亅二亠人儿入八冂冖冫几凵刀力勹匕匚匸十卜卩厂厶又口囗土士夂夊夕大女子宀寸小尢尸屮山巛工己巾干幺"),
   (0x2F34, "广廴廾弋弓彐彡彳心戈戶手支攴文斗斤方无日曰月木欠止歹殳毋比毛氏气水火爪父爻爿片牙牛犬玄玉瓜瓦甘生用田疋疒"),
   (0x2F68, "癶白皮皿目矛矢石示禸禾穴立竹米糸缶网羊羽老而耒耳聿肉臣自至臼舌舛舟艮色艸虍虫血行衣襾見角言谷豆豕豸貝赤走"),
   (0x2F9C, "足身車辛辰辵邑酉釆里金長門阜隶隹雨靑非面革韋韭音頁風飛食首香馬骨高髟鬥鬯鬲鬼魚鳥鹵鹿麥麻黃黍黑黹黽鼎鼓鼠"),
   (0x2FD0, "鼻齊齒龍龜龠"),
   (0x3002, "."),
   (0x3036, "〒 十卄卅"),
   (0x3131, "\u1100\u1101\u11aa\u1102\u11ac\u11ad\u1103\u1104"),
   (0x3139, "\u1105\u11b0\u11b1\u11b2\u11b3\u11b4\u11b5\u111a"),
   (0x3141, "\u1106\u1107\u1108\u1121\u1109\u110a\u110b\u110c"),
   (0x3149, "\u110d\u110e\u110f\u1110\u1111\u1112\u1161\u1162"),
   (0x3151, "\u1163\u1164\u1165\u1166\u1167\u1168\u1169\u116a"),
   (0x3159, "\u116b\u116c\u116d\u116e\u116f\u1170\u1171\u1172"),
   (0x3161, "\u1173\u1174\u1175 \u1114\u1115\u11c7\u11c8\u11cc"),
   (0x316A, "\u11ce\u11d3\u11d7\u11d9\u111c\u11dd\u11df\u111d"),
   (0x3172, "\u111e\u1120\u1122\u1123\u1127\u1129\u112b\u112c"),
   (0x317A, "\u112d\u112e\u112f\u1132\u1136\u1140\u1147\u114c"),
   (0x3182, "\u11f1\u11f2\u1157\u1158\u1159\u1184\u1185\u1188"),
   (0x318A, "\u1191\u1192\u1194\u119e\u11a1"),
   (0x3192, "一二三四上中下甲乙丙丁天地人"),
   (0x3260, "\u1100\u1102\u1103\u1105\u1106\u1107\u1109\u110b"),
   (0x3268, "\u110c\u110e\u110f\u1110\u1111\u1112가나다라마바사아자차카타파하"),
   (0x3280, "一二三四五六七八九十月火水木金土日株有社名特財祝労秘男女適優印注項休写正上中下左右医宗学監企資協夜"),
   (0x32D0, "アイウエオカキクケコサシスセソタチツテトナニヌネノハヒフヘホマミムメモヤユヨラリルレロワヰヱヲ"),
   (0xA69C, "ъь"),
   (0xA770, "ꝯ"),
   (0xA7F1, "scfq"),
   (0xA7F8, "ħœ"),
   (0xAB5C, "ꜧꬷɫꭒ"),
   (0xAB69, "ʍ"),
   (0xAB70, "ᎠᎡᎢᎣᎤᎥᎦᎧᎨᎩᎪᎫᎬᎭᎮᎯᎰᎱᎲᎳᎴᎵᎶᎷᎸᎹᎺᎻᎼᎽᎾᎿᏀᏁᏂᏃᏄᏅᏆᏇᏈᏉᏊᏋᏌᏍᏎᏏᏐᏑᏒᏓ"),
   (0xABA4, "ᏔᏕᏖᏗᏘᏙᏚᏛᏜᏝᏞᏟᏠᏡᏢᏣᏤᏥᏦᏧᏨᏩᏪᏫᏬᏭᏮᏯ"),
   (0xF900, "豈更車賈滑串句龜龜契金喇奈懶癩羅蘿螺裸邏樂洛烙珞落酪駱亂卵欄爛蘭鸞嵐濫藍襤拉臘蠟廊朗浪狼郎來冷勞擄櫓爐盧"),
   (0xF934, "老蘆虜路露魯鷺碌祿綠菉錄鹿論壟弄籠聾牢磊賂雷壘屢樓淚漏累縷陋勒肋凜凌稜綾菱陵讀拏樂諾丹寧怒率異北磻便復不"),
   (0xF968, "泌數索參塞省葉說殺辰沈拾若掠略亮兩凉梁糧良諒量勵呂女廬旅濾礪閭驪麗黎力曆歷轢年憐戀撚漣煉璉秊練聯輦蓮連鍊"),
   (0xF99C, "列劣咽烈裂說廉念捻殮簾獵令囹寧嶺怜玲瑩羚聆鈴零靈領例禮醴隸惡了僚寮尿料樂燎療蓼遼龍暈阮劉杻柳流溜琉留硫紐"),
   (0xF9D0, "類六戮陸倫崙淪輪律慄栗率隆利吏履易李梨泥理痢罹裏裡里離匿溺吝燐璘藺隣鱗麟林淋臨立笠粒狀炙識什茶刺切度拓糖"),
   (0xFA04, "宅洞暴輻行降見廓兀嗀  塚 晴  凞猪益礼神祥福靖精羽 蘒 諸  逸都"),
   (0xFA2A, "飯飼館鶴郞隷侮僧免勉勤卑喝嘆器塀墨層屮悔慨憎懲敏既暑梅海渚漢煮爫琢碑社祉祈祐祖祝禍禎穀突節練縉繁署者臭艹"),
   (0xFA5E, "艹著褐視謁謹賓贈辶逸難響頻恵𤋮舘  並况全侀充冀勇勺喝啕喙嗢塚墳奄奔婢嬨廒廙彩徭惘慎愈憎慠懲戴揄搜摒敖晴"),
   (0xFA92, "朗望杖歹殺流滛滋漢瀞煮瞧爵犯猪瑱甆画瘝瘟益盛直睊着磌窱節类絛練缾者荒華蝹襁覆視調諸請謁諾諭謹變贈輸遲醙鉶"),
   (0xFAC6, "陼難靖韛響頋頻鬒龜𢡊𢡄𣏕㮝䀘䀹𥉉𥳐𧻓齃龎"),
   (0xFB20, "עאדהכלםרת+"),
   (0xFB50, "ٱٱٻٻٻٻپپپپڀڀڀڀٺٺٺٺٿٿٿٿٹٹٹٹڤڤڤڤڦڦڦڦڄڄڄڄڃڃڃڃچچچچڇڇڇڇڍڍ"),
   (0xFB84, "ڌڌڎڎڈڈژژڑڑککککگگگگڳڳڳڳڱڱڱڱںںڻڻڻڻۀۀہہہہھھھھےےۓۓ"),
   (0xFBD3, "ڭڭڭڭۇۇۆۆۈۈ"),
   (0xFBDE, "ۋۋۅۅۉۉېېېېىى"),
   (0xFE10, ",、 :;!?〖〗"),
   (0xFE31, "—–__()\x7b\x7d〔〕【】《》〈〉「」『』  []"),
   (0xFE4D, "___,、  ;:?!—()\x7b\x7d〔〕#&*+-<>= \\$%@"),
   (0xFE80, "ءآآأأؤؤإإئئئئااببببةةتتتتثثثثججججححححخخخخددذذررززسسس"),
   (0xFEB4, "سششششصصصصضضضضططططظظظظععععغغغغففففققققككككللللممممننن"),
   (0xFEE8, "نههههووىىيييي"),
   (0xFF01, "!\"#$%&'()*+,-./0123456789:;<=>?@abcdefghijklmnopqrs"),
   (0xFF34, "tuvwxyz[\\]^_`abcdefghijklmnopqrstuvwxyz\x7b|\x7d~⦅⦆"),
   (0xFF61, ".「」、・ヲァィゥェォャュョッーアイウエオカキクケコサシスセソタチツテトナニヌネノハヒフヘホマミムメモヤ"),
   (0xFF95, "ユヨラリルレロワン\u3099\u309a \u1100\u1101\u11aa\u1102\u11ac"),
   (0xFFA6, "\u11ad\u1103\u1104\u1105\u11b0\u11b1\u11b2\u11b3"),
   (0xFFAE, "\u11b4\u11b5\u111a\u1106\u1107\u1108\u1121\u1109"),
   (0xFFB6, "\u110a\u110b\u110c\u110d\u110e\u110f\u1110\u1111"),
   (0xFFBE, "\u1112"),
   (0xFFC2, "\u1161\u1162\u1163\u1164\u1165\u1166  \u1167\u1168"),
   (0xFFCC, "\u1169\u116a\u116b\u116c  \u116d\u116e\u116f\u1170"),
   (0xFFD6, "\u1171\u1172  \u1173\u1174\u1175"),
   (0xFFE0, "¢£¬ ¦¥₩ │←↑→↓■○"),
   (0x10781, "ːˑæʙɓ ʣꭦʥʤɖɗᶑɘɞʩɤɢɠʛħʜɧʄʪʫɬ𝼄ꞎɮ𝼅ʎ𝼆øɶɷqɺ𝼈ɽɾʀʨʦꭧʧʈⱱ ʏʡʢ"),
   (0x107B5, "ʘǀǁǂ𝼊𝼞"),
   (0x1CCD6, "abcdefghijklmnopqrstuvwxyz0123456789"),
   (0x1D400, "abcdefghijklmnopqrstuvwxyzabcdefghijklmnopqrstuvwxyz"),
   (0x1D434, "abcdefghijklmnopqrstuvwxyzabcdefg ijklmnopqrstuvwxyz"),
   (0x1D468, "abcdefghijklmnopqrstuvwxyzabcdefghijklmnopqrstuvwxyz"),
   (0x1D49C, "a cd  g  jk  nopq stuvwxyzabcd f hijklmn pqrstuvwxyz"),
   (0x1D4D0, "abcdefghijklmnopqrstuvwxyzabcdefghijklmnopqrstuvwxyz"),
   (0x1D504, "ab defg  jklmnopq stuvwxy abcdefghijklmnopqrstuvwxyz"),
   (0x1D538, "ab defg ijklm o"),
   (0x1D54A, "stuvwxy abcdefghijklmnopqrstuvwxyzabcdefghijklmnopqr"),
   (0x1D57E, "stuvwxyzabcdefghijklmnopqrstuvwxyzabcdefghijklmnopqr"),
   (0x1D5B2, "stuvwxyzabcdefghijklmnopqrstuvwxyzabcdefghijklmnopqr"),
   (0x1D5E6, "stuvwxyzabcdefghijklmnopqrstuvwxyzabcdefghijklmnopqr"),
   (0x1D61A, "stuvwxyzabcdefghijklmnopqrstuvwxyzabcdefghijklmnopqr"),
   (0x1D64E, "stuvwxyzabcdefghijklmnopqrstuvwxyzabcdefghijklmnopqr"),
   (0x1D682, "stuvwxyzabcdefghijklmnopqrstuvwxyzıȷ  αβγδεζηθικλμνξ"),
   (0x1D6B6, "οπρθστυφχψω∇αβγδεζηθικλμνξοπρσστυφχψω∂εθκφρπαβγδεζηθ"),
   (0x1D6EA, "ικλμνξοπρθστυφχψω∇αβγδεζηθικλμνξοπρσστυφχψω∂εθκφρπαβ"),
   (0x1D71E, "γδεζηθικλμνξοπρθστυφχψω∇αβγδεζηθικλμνξοπρσστυφχψω∂εθ"),
   (0x1D752, "κφρπαβγδεζηθικλμνξοπρθστυφχψω∇αβγδεζηθικλμνξοπρσστυφ"),
   (0x1D786, "χψω∂εθκφρπαβγδεζηθικλμνξοπρθστυφχψω∇αβγδεζηθικλμνξοπ"),
   (0x1D7BA, "ρσστυφχψω∂εθκφρπϝϝ  01234567890123456789012345678901"),
   (0x1D7EE, "234567890123456789"),
   (0x1E030, "абвгдежзиклмопрстуфхцчшыэюꚉәіјөүӏабвгдежзиклопсуфхцч"),
   (0x1E064, "шъыґіѕџҫꙑұ"),
   (0x1EE00, "ابجد وزحطيكلمنسعفصقرشتثخذضظغٮںڡٯ بج ه  ح يكلمنسعفصق "),
   (0x1EE34, "شتثخ ض غ"),
   (0x1EE42, "ج"),
   (0x1EE47, "ح ي ل نسع صق ش  خ ض غ ں ٯ بج ه  حطيك منسعفصق شتثخ ضظ"),
   (0x1EE7B, "غٮ ڡ ابجدهوزحطي لمنسعفصقرشتثخذضظغ"),
   (0x1EEA1, "بجد وزحطي لمنسعفصقرشتثخذضظغ"),
   (0x1F130, "abcdefghijklmnopqrstuvwxyz"),
   (0x1F210, "手字双デ二多解天交映無料前後再新初終生販声吹演投捕一三遊左中右指走打禁空合満有月申割営配"),
   (0x1F250, "得可"),
   (0x1FBF0, "0123456789"),
   (0x2F800, "丽丸乁𠄢你侮侻倂偺備僧像㒞𠘺免兔兤具𠔜㒹內再𠕋冗冤仌冬况𩇟凵刃㓟刻剆割剷㔕勇勉勤勺包匆北卉卑博即卽卿卿卿"),
   (0x2F834, "𠨬灰及叟𠭣叫叱吆咞吸呈周咢哶唐啓啣善善喙喫喳嗂圖嘆圗噑噴切壮城埴堍型堲報墬𡓤売壷夆多夢奢𡚨𡛪姬娛娧姘婦㛮"),
   (0x2F868, "㛼嬈嬾嬾𡧈寃寘寧寳𡬘寿将当尢㞁屠屮峀岍𡷤嵃𡷦嵮嵫嵼巡巢㠯巽帨帽幩㡢𢆃㡼庰庳庶廊𪎒廾𢌱𢌱舁弢弢㣇𣊸𦇚形彫㣣"),
   (0x2F89C, "徚忍志忹悁㤺㤜悔𢛔惇慈慌慎慌慺憎憲憤憯懞懲懶成戛扝抱拔捐𢬌挽拼捨掃揤𢯱搢揅掩㨮摩摾撝摷㩬敏敬𣀊旣書晉㬙暑"),
   (0x2F8D0, "㬈㫤冒冕最暜肭䏙朗望朡杞杓𣏃㭉柺枅桒梅𣑭梎栟椔㮝楂榣槪檨𣚣櫛㰘次𣢧歔㱎歲殟殺殻𣪍𡴋𣫺汎𣲼沿泍汧洖派海流浩"),
   (0x2F904, "浸涅𣴞洴港湮㴳滋滇𣻑淹潮𣽞𣾎濆瀹瀞瀛㶖灊災灷炭𠔥煅𤉣熜𤎫爨爵牐𤘈犀犕𤜵𤠔獺王㺬玥㺸㺸瑇瑜瑱璅瓊㼛甤𤰶甾𤲒"),
   (0x2F938, "異𢆟瘐𤾡𤾸𥁄㿼䀈直𥃳𥃲𥄙𥄳眞真真睊䀹瞋䁆䂖𥐝硎碌磌䃣𥘦祖𥚚𥛅福秫䄯穀穊穏𥥼𥪧𥪧竮䈂𥮫篆築䈧𥲀糒䊠糨糣紀𥾆"),
   (0x2F96C, "絣䌁緇縂繅䌴𦈨𦉇䍙𦋙罺𦌾羕翺者𦓚𦔣聠𦖨聰𣍟䏕育脃䐋脾媵𦞧𦞵𣎓𣎜舁舄辞䑫芑芋芝劳花芳芽苦𦬼若茝荣莭茣莽菧著"),
   (0x2F9A0, "荓菊菌菜𦰶𦵫𦳕䔫蓱蓳蔖𧏊蕤𦼬䕝䕡𦾱𧃒䕫虐虜虧虩蚩蚈蜎蛢蝹蜨蝫螆䗗蟡蠁䗹衠衣𧙧裗裞䘵裺㒻𧢮𧥦䚾䛇誠諭變豕𧲨"),
   (0x2F9D4, "貫賁贛起𧼯𠠄跋趼跰𠣞軔輸𨗒𨗭邔郱鄑𨜮鄛鈸鋗鋘鉼鏹鐕𨯺開䦕閷𨵷䧦雃嶲霣𩅅𩈚䩮䩶韠𩐊䪲𩒖頋頋頩𩖶飢䬳餩馧駂駾"),
   (0x2FA08, "䯎𩬰鬒鱀鳽䳎䳭鵧𪃎䳸𪄅𪈎𪊑麻䵖黹黾鼅鼏鼖鼻𪘀")]

/-- Rows of characters that stand for one word each. -/
def wordRows : List (Nat × String) :=
  [(0xB9, "1 o"),
   (0xBC, "1⁄4 1⁄2 3⁄4"),
   (0x132, "ij ij"),
   (0x13F, "l· l·"),
   (0x149, "ʼn"),
   (0x1C4, "dž dž dž lj lj lj nj nj nj"),
   (0x1F1, "dz dz dz"),
   (0x340, "\u0300 \u0301"),
   (0x343, "\u0313 \u0308\u0301 ι"),
   (0x587, "եւ"),
   (0x675, "اٴ وٴ ۇٴ يٴ"),
   (0x958, "क\u093c ख\u093c ग\u093c ज\u093c ड\u093c ढ\u093c"),
   (0x95E, "फ\u093c य\u093c"),
   (0x9DC, "ড\u09bc ঢ\u09bc"),
   (0x9DF, "য\u09bc"),
   (0xA33, "ਲ\u0a3c"),
   (0xA36, "ਸ\u0a3c"),
   (0xA59, "ਖ\u0a3c ਗ\u0a3c ਜ\u0a3c"),
   (0xA5E, "ਫ\u0a3c"),
   (0xB5C, "ଡ\u0b3c ଢ\u0b3c"),
   (0xE33, "\u0e4dา"),
   (0xEB3, "\u0ecdາ"),
   (0xEDC, "ຫນ ຫມ"),
   (0xF43, "ག\u0fb7"),
   (0xF4D, "ཌ\u0fb7"),
   (0xF52, "ད\u0fb7"),
   (0xF57, "བ\u0fb7"),
   (0xF5C, "ཛ\u0fb7"),
   (0xF69, "ཀ\u0fb5"),
   (0xF73, "\u0f71\u0f72"),
   (0xF75, "\u0f71\u0f74 \u0fb2\u0f80 \u0fb2\u0f71\u0f80"),
   (0xF78, "\u0fb3\u0f80 \u0fb3\u0f71\u0f80"),
   (0xF81, "\u0f71\u0f80"),
   (0xF93, "\u0f92\u0fb7"),
   (0xF9D, "\u0f9c\u0fb7"),
   (0xFA2, "\u0fa1\u0fb7"),
   (0xFA7, "\u0fa6\u0fb7"),
   (0xFAC, "\u0fab\u0fb7"),
   (0xFB9, "\u0f90\u0fb5"),
   (0x1E9A, "aʾ ṡ"),
   (0x1F71, "ά"),
   (0x1F73, "έ"),
   (0x1F75, "ή"),
   (0x1F77, "ί"),
   (0x1F79, "ό"),
   (0x1F7B, "ύ"),
   (0x1F7D, "ώ"),
   (0x1F80, "ἀι ἁι ἂι ἃι ἄι ἅι ἆι ἇι ἀι ἁι ἂι ἃι ἄι ἅι ἆι ἇι ἠι"),
   (0x1F91, "ἡι ἢι ἣι ἤι ἥι ἦι ἧι ἠι ἡι ἢι ἣι ἤι ἥι ἦι ἧι ὠι ὡι"),
   (0x1FA2, "ὢι ὣι ὤι ὥι ὦι ὧι ὠι ὡι ὢι ὣι ὤι ὥι ὦι ὧι"),
   (0x1FB2, "ὰι αι άι"),
   (0x1FB7, "ᾶι"),
   (0x1FBB, "ά αι"),
   (0x1FBE, "ι"),
   (0x1FC2, "ὴι ηι ήι"),
   (0x1FC7, "ῆι"),
   (0x1FC9, "έ"),
   (0x1FCB, "ή ηι"),
   (0x1FEF, "`"),
   (0x1FF2, "ὼι ωι ώι"),
   (0x1FF7, "ῶι"),
   (0x1FF9, "ό"),
   (0x1FFB, "ώ ωι"),
   (0x2033, "′′ ′′′"),
   (0x2036, "‵‵ ‵‵‵"),
   (0x203C, "!!"),
   (0x2047, "?? ?! !?"),
   (0x2057, "′′′′"),
   (0x20A8, "rs"),
   (0x2100, "a/c a/s c °c"),
   (0x2105, "c/o c/u ɛ"),
   (0x2109, "°f"),
   (0x2115, "n no"),
   (0x2119, "p q r r r"),
   (0x2120, "sm tel tm"),
   (0x2124, "z"),
   (0x212C, "b c"),
   (0x212F, "e e f"),
   (0x2133, "m o א ב ג ד i"),
   (0x213B, "fax π γ γ π ∑"),
   (0x2150, "1⁄7 1⁄9 1⁄10 1⁄3 2⁄3 1⁄5 2⁄5 3⁄5 4⁄5 1⁄6 5⁄6 1⁄8 3⁄8"),
   (0x215D, "5⁄8 7⁄8 1⁄ i ii iii iv v vi vii viii ix x xi xii l c"),
   (0x216E, "d m i ii iii iv v vi vii viii ix x xi xii l c d m"),
   (0x2189, "0⁄3"),
   (0x222C, "∫∫ ∫∫∫"),
   (0x222F, "∮∮ ∮∮∮"),
   (0x2460, "1 2 3 4 5 6 7 8 9 10 11 12 13 14 15 16 17 18 19 20"),
   (0x2474, "(1) (2) (3) (4) (5) (6) (7) (8) (9) (10) (11) (12)"),
   (0x2480, "(13) (14) (15) (16) (17) (18) (19) (20)"),
   (0x249C, "(a) (b) (c) (d) (e) (f) (g) (h) (i) (j) (k) (l) (m)"),
   (0x24A9, "(n) (o) (p) (q) (r) (s) (t) (u) (v) (w) (x) (y) (z)"),
   (0x2A0C, "∫∫∫∫"),
   (0x2A74, "::= == ==="),
   (0x2ADC, "⫝\u0338"),
   (0x309F, "より"),
   (0x30FF, "コト"),
   (0x3200, "(\u1100) (\u1102) (\u1103) (\u1105) (\u1106)"),
   (0x3205, "(\u1107) (\u1109) (\u110b) (\u110c) (\u110e)"),
   (0x320A, "(\u110f) (\u1110) (\u1111) (\u1112) (가) (나) (다) (라)"),
   (0x3212, "(마) (바) (사) (아) (자) (차) (카) (타) (파) (하) (주) (오전)"),
   (0x321E, "(오후)"),
   (0x3220, "(一) (二) (三) (四) (五) (六) (七) (八) (九) (十) (月) (火) (水)"),
   (0x322D, "(木) (金) (土) (日) (株) (有) (社) (名) (特) (財) (祝) (労) (代)"),
   (0x323A, "(呼) (学) (監) (企) (資) (協) (祭) (休) (自) (至) 問 幼 文 箏"),
   (0x3250, "pte 21 22 23 24 25 26 27 28 29 30 31 32 33 34 35"),
   (0x327C, "참고 주의 우"),
   (0x32B1, "36 37 38 39 40 41 42 43 44 45 46 47 48 49 50 1月 2月"),
   (0x32C2, "3月 4月 5月 6月 7月 8月 9月 10月 11月 12月 hg erg ev ltd"),
   (0x32FF, "令和 アパート アルファ アンペア アール イニング インチ ウォン エスクード エーカー オンス"),
   (0x330A, "オーム カイリ カラット カロリー ガロン ガンマ ギガ ギニー キュリー ギルダー キロ キログラム"),
   (0x3316, "キロメートル キロワット グラム グラムトン クルゼイロ クローネ ケース コルナ コーポ サイクル"),
   (0x3320, "サンチーム シリング センチ セント ダース デシ ドル トン ナノ ノット ハイツ パーセント パーツ"),
   (0x332D, "バーレル ピアストル ピクル ピコ ビル ファラッド フィート ブッシェル フラン ヘクタール ペソ"),
   (0x3338, "ペニヒ ヘルツ ペンス ページ ベータ ポイント ボルト ホン ポンド ホール ホーン マイクロ マイル"),
   (0x3345, "マッハ マルク マンション ミクロン ミリ ミリバール メガ メガトン メートル ヤード ヤール ユアン"),
   (0x3351, "リットル リラ ルピー ルーブル レム レントゲン ワット 0点 1点 2点 3点 4点 5点 6点"),
   (0x335F, "7点 8点 9点 10点 11点 12点 13点 14点 15点 16点 17点 18点 19点 20点"),
   (0x336D, "21点 22点 23点 24点 hpa da au bar ov pc dm dm2 dm3 iu 平成"),
   (0x337C, "昭和 大正 明治 株式会社 pa na μa ma ka kb mb gb cal kcal pf nf"),
   (0x338C, "μf μg mg kg hz khz mhz ghz thz μl ml dl kl fm nm μm"),
   (0x339C, "mm cm km mm2 cm2 m2 km2 mm3 cm3 m3 km3 m∕s m∕s2 pa"),
   (0x33AA, "kpa mpa gpa rad rad∕s rad∕s2 ps ns μs ms pv nv μv mv"),
   (0x33B8, "kv mv pw nw μw mw kw mw kω mω"),
   (0x33C3, "bq cc cd c∕kg"),
   (0x33C8, "db gy ha hp in kk km kt lm ln log lx mb mil mol ph"),
   (0x33D9, "ppm pr sr sv wb v∕m a∕m 1日 2日 3日 4日 5日 6日 7日 8日 9日"),
   (0x33E9, "10日 11日 12日 13日 14日 15日 16日 17日 18日 19日 20日 21日 22日"),
   (0x33F6, "23日 24日 25日 26日 27日 28日 29日 30日 31日 gal"),
   (0xFB00, "ff fi fl ffi ffl st st"),
   (0xFB13, "մն մե մի վն մխ"),
   (0xFB1D, "י\u05b4"),
   (0xFB1F, "ײ\u05b7"),
   (0xFB2A, "ש\u05c1 ש\u05c2 ש\u05bc\u05c1 ש\u05bc\u05c2 א\u05b7"),
   (0xFB2F, "א\u05b8 א\u05bc ב\u05bc ג\u05bc ד\u05bc ה\u05bc"),
   (0xFB35, "ו\u05bc ז\u05bc"),
   (0xFB38, "ט\u05bc י\u05bc ך\u05bc כ\u05bc ל\u05bc"),
   (0xFB3E, "מ\u05bc"),
   (0xFB40, "נ\u05bc ס\u05bc"),
   (0xFB43, "ף\u05bc פ\u05bc"),
   (0xFB46, "צ\u05bc ק\u05bc ר\u05bc ש\u05bc ת\u05bc ו\u05b9"),
   (0xFB4C, "ב\u05bf כ\u05bf פ\u05bf אל"),
   (0xFBDD, "ۇٴ"),
   (0xFBEA, "ئا ئا ئە ئە ئو ئو ئۇ ئۇ ئۆ ئۆ ئۈ ئۈ ئې ئې ئې ئى ئى"),
   (0xFBFB, "ئى ی ی ی ی ئج ئح ئم ئى ئي بج بح بخ بم بى بي تج تح تخ"),
   (0xFC0E, "تم تى تي ثج ثم ثى ثي جح جم حج حم خج خح خم سج سح سخ"),
   (0xFC1F, "سم صح صم ضج ضح ضخ ضم طح طم ظم عج عم غج غم فج فح فخ"),
   (0xFC30, "فم فى في قح قم قى قي كا كج كح كخ كل كم كى كي لج لح"),
   (0xFC41, "لخ لم لى لي مج مح مخ مم مى مي نج نح نخ نم نى ني هج"),
   (0xFC52, "هم هى هي يج يح يخ يم يى يي ذ\u0670 ر\u0670 ى\u0670"),
   (0xFC64, "ئر ئز ئم ئن ئى ئي بر بز بم بن بى بي تر تز تم تن تى"),
   (0xFC75, "تي ثر ثز ثم ثن ثى ثي فى في قى قي كا كل كم كى كي لم"),
   (0xFC86, "لى لي ما مم نر نز نم نن نى ني ى\u0670 ير يز يم ين يى"),
   (0xFC96, "يي ئج ئح ئخ ئم ئه بج بح بخ بم به تج تح تخ تم ته ثم"),
   (0xFCA7, "جح جم حج حم خج خم سج سح سخ سم صح صخ صم ضج ضح ضخ ضم"),
   (0xFCB8, "طح ظم عج عم غج غم فج فح فخ فم قح قم كج كح كخ كل كم"),
   (0xFCC9, "لج لح لخ لم له مج مح مخ مم نج نح نخ نم نه هج هم"),
   (0xFCD9, "ه\u0670 يج يح يخ يم يه ئم ئه بم به تم ته ثم ثه سم سه"),
   (0xFCE9, "شم شه كل كم لم نم نه يم يه ـ\u064e\u0651"),
   (0xFCF3, "ـ\u064f\u0651 ـ\u0650\u0651 طى طي عى عي غى غي سى سي"),
   (0xFCFD, "شى شي حى حي جى جي خى خي صى صي ضى ضي شج شح شخ شم شر"),
   (0xFD0E, "سر صر ضر طى طي عى عي غى غي سى سي شى شي حى حي جى جي"),
   (0xFD1F, "خى خي صى صي ضى ضي شج شح شخ شم شر سر صر ضر شج شح شخ"),
   (0xFD30, "شم سه شه طم سج سح سخ شج شح شخ طم ظم ا\u064b ا\u064b"),
   (0xFD50, "تجم تحج تحج تحم تخم تمج تمح تمخ جمح جمح حمي حمى سحج"),
   (0xFD5D, "سجح سجى سمح سمح سمج سمم سمم صحح صحح صمم شحم شحم شجي"),
   (0xFD6A, "شمخ شمخ شمم شمم ضحى ضخم ضخم طمح طمح طمم طمي عجم عمم"),
   (0xFD77, "عمم عمى غمم غمي غمى فخم فخم قمح قمم لحم لحي لحى لجج"),
   (0xFD84, "لجج لخم لخم لمح لمح محج محم محي مجح مجم مخج مخم"),
   (0xFD92, "مجخ همج همم نحم نحى نجم نجم نجى نمي نمى يمم يمم بخي"),
   (0xFD9F, "تجي تجى تخي تخى تمي تمى جمي جحى جمى سخى صحي شحي ضحي"),
   (0xFDAC, "لجي لمي يحي يجي يمي ممي قمي نحي قمح لحم عمي كمي نجح"),
   (0xFDB9, "مخي لجم كمم لجم نجح جحي حجي مجي فمي بحي كمم عجم صمم"),
   (0xFDC6, "سخي نجي"),
   (0xFDF0, "صلے قلے الله اكبر محمد صلعم رسول عليه وسلم صلى"),
   (0xFDFC, "ریال"),
   (0xFE71, "ـ\u064b"),
   (0xFE77, "ـ\u064e"),
   (0xFE79, "ـ\u064f"),
   (0xFE7B, "ـ\u0650"),
   (0xFE7D, "ـ\u0651"),
   (0xFE7F, "ـ\u0652"),
   (0xFEF5, "لآ لآ لأ لأ لإ لإ لا لا"),
   (0x1D15E, "𝅗𝅥 𝅘𝅥 𝅘𝅥𝅮 𝅘𝅥𝅯 𝅘𝅥𝅰 𝅘𝅥𝅱 𝅘𝅥𝅲"),
   (0x1D1BB, "𝆹𝅥 𝆺𝅥 𝆹𝅥𝅮 𝆺𝅥𝅮 𝆹𝅥𝅯 𝆺𝅥𝅯"),
   (0x1F101, "0, 1, 2, 3, 4, 5, 6, 7, 8, 9,"),
   (0x1F110, "(a) (b) (c) (d) (e) (f) (g) (h) (i) (j) (k) (l) (m)"),
   (0x1F11D, "(n) (o) (p) (q) (r) (s) (t) (u) (v) (w) (x) (y) (z)"),
   (0x1F12A, "〔s〕 c r cd wz"),
   (0x1F14A, "hv mv sd ss ppv wc"),
   (0x1F16A, "mc md mr"),
   (0x1F190, "dj"),
   (0x1F200, "ほか ココ サ"),
   (0x1F240, "〔本〕 〔三〕 〔二〕 〔安〕 〔点〕 〔打〕 〔盗〕 〔勝〕 〔敗〕")]

-- ============================================================== the forms

/-- The rows, each with the characters its members stand for. -/
def letterTable : List (Nat × List Char) :=
  letterRows.map fun r => (r.1, r.2.toList)

/-- The rows, each with the words its members stand for. -/
def wordTable : List (Nat × List (List Char)) :=
  wordRows.map fun r => (r.1, Text.fields (· == ' ') r.2.toList)

/-- The entry for a code point in rows that begin at some code points. -/
def atCode? {α : Type} (rows : List (Nat × List α)) (code : Nat) : Option α :=
  rows.findSome? fun r =>
    if r.1 ≤ code then r.2[code - r.1]? else none

/-- What a character that is listed stands for. -/
def image? (c : Char) : Option (List Char) :=
  match (atCode? letterTable c.toNat).filter (· ≠ ' ') with
  | some d => some [d]
  | none => atCode? wordTable c.toNat

/-- The two characters that say whether their neighbours join. -/
def isJoiner (c : Char) : Bool := c == '\u200c' || c == '\u200d'

/-- A name may not hold the character. -/
def isRefused (c : Char) : Bool :=
  (Text.Quoted.invisibleRanges.contains c && !isJoiner c)
    || refusedRanges.contains c

/-- What a character stands for in a name that may hold it. -/
def foldChar? (c : Char) : Option (List Char) :=
  if ignoredRanges.contains c then some []
  else if isRefused c then none
  else
    match image? c with
    | some s => some s
    | none =>
      if keptRanges.contains c then some [c] else some (Text.lowerChar c)

/-- The one form of a name. -/
def fold? (s : List Char) : Option (List Char) :=
  (s.mapM foldChar?).map fun parts => Text.compose parts.flatten

/-- A text is in that form already. -/
def isFolded (s : List Char) : Bool :=
  s.all (fun c => foldChar? c == some [c]) && Text.compose s == s

end Stencil.Url.Name
